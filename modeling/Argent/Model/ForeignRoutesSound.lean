import Argent.Model.ForeignRoutes

/-!
# Foreign routes are exhaustive

* `walk_eq`              the work list visits the foreign statements in source order;
* `foreignRuns`          the foreign statements that a choice of branches executes;
* `countP_run`           a run executes what stands outside of every branch as often as it stands there;
* `ForeignCovered`       a statement validates each output of its group once, as declared;
* `foreignRoutes_exhaustive`      **every run validates every spawn once, and every group completely**.
-/

set_option linter.unusedSectionVars false

namespace Argent.Model
open Argent.Fallible

/-! ## source order -/

mutual

/-- the foreign statements of a statement in source order, each with its flag -/
def visited (cursor : SourceNodeCursor) (unconditional : Bool) :
    AuthoredEntryStatement → List (ForeignStatement × Bool)
  | .block statements => sequenceVisited cursor unconditional 0 statements
  | .ifElse _ thenBranch elseBranch =>
    visited (cursor.child .thenBranch) false thenBranch ++
      optionalVisited (cursor.child .elseBranch) false elseBranch
  | .foreignBecome group routes => [(⟨cursor, group, routes⟩, unconditional)]
  | .become _ | .sil _ => []

def optionalVisited (cursor : SourceNodeCursor) (unconditional : Bool) :
    Option AuthoredEntryStatement → List (ForeignStatement × Bool)
  | none => []
  | some statement => visited cursor unconditional statement

def sequenceVisited (cursor : SourceNodeCursor) (unconditional : Bool) (index : Nat) :
    List AuthoredEntryStatement → List (ForeignStatement × Bool)
  | [] => []
  | statement :: statements =>
    visited (cursor.child (.statement index)) unconditional statement ++
      sequenceVisited cursor unconditional (index + 1) statements

end

def PendingStatement.visited (item : PendingStatement) : List (ForeignStatement × Bool) :=
  Model.visited item.cursor item.unconditional item.statement

theorem PendingStatement.visited_mk (statement : AuthoredEntryStatement)
    (cursor : SourceNodeCursor) (unconditional : Bool) :
    PendingStatement.visited ⟨statement, cursor, unconditional⟩ =
      Model.visited cursor unconditional statement := rfl

theorem flatMap_pendingStatements (statements : List AuthoredEntryStatement)
    (cursor : SourceNodeCursor) (unconditional : Bool) :
    (pendingStatements statements cursor unconditional).flatMap PendingStatement.visited =
      sequenceVisited cursor unconditional 0 statements := by
  have hfrom : ∀ index, ((statements.zipIdx index).map fun item =>
      (⟨item.1, cursor.child (.statement item.2), unconditional⟩ : PendingStatement)).flatMap
        PendingStatement.visited = sequenceVisited cursor unconditional index statements := by
    induction statements with
    | nil => intro index; rw [sequenceVisited]; rfl
    | cons statement statements ih =>
      intro index
      rw [List.zipIdx_cons, List.map_cons, List.flatMap_cons, ih, sequenceVisited]
      rfl
  exact hfrom 0

theorem flatMap_pendingBranches (thenBranch : AuthoredEntryStatement)
    (elseBranch : Option AuthoredEntryStatement) (cursor : SourceNodeCursor) :
    (pendingBranches thenBranch elseBranch cursor).flatMap PendingStatement.visited =
      visited (cursor.child .thenBranch) false thenBranch ++
        optionalVisited (cursor.child .elseBranch) false elseBranch := by
  cases elseBranch with
  | none => rw [optionalVisited]; rfl
  | some branch =>
    rw [optionalVisited]
    show _ ++ (_ ++ []) = _
    rw [List.append_nil]
    rfl

/-- the work list visits the foreign statements in source order -/
theorem walk_eq {σ : Type} (visit : σ → ForeignStatement → Bool → Except String σ) (state : σ)
    (pending : List PendingStatement) : walk visit state pending =
      (pending.flatMap PendingStatement.visited).foldlM (fun state item =>
        visit state item.1 item.2) state := by
  fun_induction walk visit state pending with
  | case1 state => rfl
  | case2 state statements cursor unconditional pending ih =>
    rw [ih, List.flatMap_append, flatMap_pendingStatements, List.flatMap_cons]
    rw [PendingStatement.visited_mk, visited]
  | case3 state _ thenBranch elseBranch cursor _ pending ih =>
    rw [ih, List.flatMap_append, flatMap_pendingBranches, List.flatMap_cons]
    rw [PendingStatement.visited_mk, visited]
  | case4 state group routes cursor unconditional pending ih =>
    rw [List.flatMap_cons, PendingStatement.visited_mk, visited, List.singleton_append,
      List.foldlM_cons]
    exact congrArg _ (funext ih)
  | case5 state _ _ _ pending ih =>
    rw [ih, List.flatMap_cons]
    rw [PendingStatement.visited_mk, visited, List.nil_append]
  | case6 state _ _ _ pending ih =>
    rw [ih, List.flatMap_cons]
    rw [PendingStatement.visited_mk, visited, List.nil_append]

/-- the foreign statements of a body in source order -/
def bodyVisited (body : List AuthoredEntryStatement) : List (ForeignStatement × Bool) :=
  sequenceVisited [.body] true 0 body

theorem walk_body {σ : Type} (visit : σ → ForeignStatement → Bool → Except String σ) (state : σ)
    (body : List AuthoredEntryStatement) :
    walk visit state (pendingStatements body [.body] true) =
      (bodyVisited body).foldlM (fun state item => visit state item.1 item.2) state := by
  rw [walk_eq, flatMap_pendingStatements]
  rfl

/-! ## runs -/

mutual

/-- the foreign statements that are executed, for every choice of branches -/
def foreignRuns (cursor : SourceNodeCursor) :
    AuthoredEntryStatement → List (List ForeignStatement)
  | .block statements => sequenceForeignRuns cursor 0 statements
  | .ifElse _ thenBranch elseBranch =>
    foreignRuns (cursor.child .thenBranch) thenBranch ++
      optionalForeignRuns (cursor.child .elseBranch) elseBranch
  | .foreignBecome group routes => [[⟨cursor, group, routes⟩]]
  | .become _ | .sil _ => [[]]

/-- an omitted `else` executes nothing -/
def optionalForeignRuns (cursor : SourceNodeCursor) :
    Option AuthoredEntryStatement → List (List ForeignStatement)
  | none => [[]]
  | some statement => foreignRuns cursor statement

def sequenceForeignRuns (cursor : SourceNodeCursor) (index : Nat) :
    List AuthoredEntryStatement → List (List ForeignStatement)
  | [] => [[]]
  | statement :: statements =>
    (foreignRuns (cursor.child (.statement index)) statement).flatMap fun first =>
      (sequenceForeignRuns cursor (index + 1) statements).map fun rest => first ++ rest

end

/-- the runs of a body -/
def bodyRuns (body : List AuthoredEntryStatement) : List (List ForeignStatement) :=
  sequenceForeignRuns [.body] 0 body

mutual

theorem visited_conditional {cursor : SourceNodeCursor} {item : ForeignStatement × Bool}
    {statement : AuthoredEntryStatement} (h : item ∈ visited cursor false statement) :
    item.2 = false := by
  cases statement with
  | block statements =>
    rw [visited] at h
    exact sequenceVisited_conditional h
  | ifElse condition thenBranch elseBranch =>
    rw [visited] at h
    obtain h | h := List.mem_append.mp h
    · exact visited_conditional h
    · exact optionalVisited_conditional h
  | foreignBecome group routes =>
    rw [visited] at h
    rw [List.mem_singleton.mp h]
  | become routes =>
    rw [visited] at h
    cases h
  | sil site =>
    rw [visited] at h
    cases h

theorem optionalVisited_conditional {cursor : SourceNodeCursor} {item : ForeignStatement × Bool}
    {statement : Option AuthoredEntryStatement} (h : item ∈ optionalVisited cursor false statement) :
    item.2 = false := by
  cases statement with
  | none =>
    rw [optionalVisited] at h
    cases h
  | some statement =>
    rw [optionalVisited] at h
    exact visited_conditional h

theorem sequenceVisited_conditional {cursor : SourceNodeCursor} {index : Nat}
    {item : ForeignStatement × Bool} {statements : List AuthoredEntryStatement}
    (h : item ∈ sequenceVisited cursor false index statements) : item.2 = false := by
  cases statements with
  | nil =>
    rw [sequenceVisited] at h
    cases h
  | cons statement statements =>
    rw [sequenceVisited] at h
    obtain h | h := List.mem_append.mp h
    · exact visited_conditional h
    · exact sequenceVisited_conditional h

end

mutual

/-- what a run executes is visited -/
theorem mem_visited_of_run (unconditional : Bool) {cursor : SourceNodeCursor}
    {statement : AuthoredEntryStatement} {run : List ForeignStatement} {executed : ForeignStatement}
    (hrun : run ∈ foreignRuns cursor statement) (h : executed ∈ run) :
    ∃ flag, (executed, flag) ∈ visited cursor unconditional statement := by
  cases statement with
  | block statements =>
    rw [foreignRuns] at hrun
    rw [visited]
    exact mem_sequenceVisited_of_run unconditional hrun h
  | ifElse condition thenBranch elseBranch =>
    rw [foreignRuns] at hrun
    rw [visited]
    obtain hrun | hrun := List.mem_append.mp hrun
    · obtain ⟨flag, hflag⟩ := mem_visited_of_run false hrun h
      exact ⟨flag, List.mem_append_left _ hflag⟩
    · obtain ⟨flag, hflag⟩ := mem_optionalVisited_of_run false hrun h
      exact ⟨flag, List.mem_append_right _ hflag⟩
  | foreignBecome group routes =>
    rw [foreignRuns] at hrun
    rw [visited]
    rw [List.mem_singleton.mp hrun] at h
    rw [List.mem_singleton.mp h]
    exact ⟨unconditional, List.mem_singleton_self _⟩
  | become routes =>
    rw [foreignRuns] at hrun
    rw [List.mem_singleton.mp hrun] at h
    cases h
  | sil site =>
    rw [foreignRuns] at hrun
    rw [List.mem_singleton.mp hrun] at h
    cases h

theorem mem_optionalVisited_of_run (unconditional : Bool) {cursor : SourceNodeCursor}
    {statement : Option AuthoredEntryStatement} {run : List ForeignStatement}
    {executed : ForeignStatement} (hrun : run ∈ optionalForeignRuns cursor statement)
    (h : executed ∈ run) :
    ∃ flag, (executed, flag) ∈ optionalVisited cursor unconditional statement := by
  cases statement with
  | none =>
    rw [optionalForeignRuns] at hrun
    rw [List.mem_singleton.mp hrun] at h
    cases h
  | some statement =>
    rw [optionalForeignRuns] at hrun
    rw [optionalVisited]
    exact mem_visited_of_run unconditional hrun h

theorem mem_sequenceVisited_of_run (unconditional : Bool) {cursor : SourceNodeCursor} {index : Nat}
    {statements : List AuthoredEntryStatement} {run : List ForeignStatement}
    {executed : ForeignStatement} (hrun : run ∈ sequenceForeignRuns cursor index statements)
    (h : executed ∈ run) :
    ∃ flag, (executed, flag) ∈ sequenceVisited cursor unconditional index statements := by
  cases statements with
  | nil =>
    rw [sequenceForeignRuns] at hrun
    rw [List.mem_singleton.mp hrun] at h
    cases h
  | cons statement statements =>
    rw [sequenceForeignRuns] at hrun
    obtain ⟨first, hfirst, hrun⟩ := List.mem_flatMap.mp hrun
    obtain ⟨rest, hrest, rfl⟩ := List.mem_map.mp hrun
    rw [sequenceVisited]
    obtain h | h := List.mem_append.mp h
    · obtain ⟨flag, hflag⟩ := mem_visited_of_run unconditional hfirst h
      exact ⟨flag, List.mem_append_left _ hflag⟩
    · obtain ⟨flag, hflag⟩ := mem_sequenceVisited_of_run unconditional hrest h
      exact ⟨flag, List.mem_append_right _ hflag⟩

end

mutual

/-- a run executes the statements of a kind that stands outside of every branch as often as they
stand there -/
theorem countP_run {kind : ForeignStatement → Bool} {unconditional : Bool}
    {cursor : SourceNodeCursor} {statement : AuthoredEntryStatement} {run : List ForeignStatement}
    (hrun : run ∈ foreignRuns cursor statement)
    (h : ∀ item ∈ visited cursor unconditional statement, kind item.1 = true → item.2 = true) :
    run.countP kind = (visited cursor unconditional statement).countP fun item => kind item.1 := by
  cases statement with
  | block statements =>
    rw [foreignRuns] at hrun
    rw [visited] at h ⊢
    exact countP_sequenceRun hrun h
  | ifElse condition thenBranch elseBranch =>
    -- nothing of the kind stands in a branch
    have hnone : ∀ item ∈ visited cursor unconditional (.ifElse condition thenBranch elseBranch),
        ¬ kind item.1 = true := by
      intro item hitem hkind
      have hflag := h item hitem hkind
      rw [visited] at hitem
      obtain hitem | hitem := List.mem_append.mp hitem
      · rw [visited_conditional hitem] at hflag
        cases hflag
      · rw [optionalVisited_conditional hitem] at hflag
        cases hflag
    have hzero := List.countP_eq_zero.mpr hnone
    rw [hzero]
    refine List.countP_eq_zero.mpr fun executed hexecuted => ?_
    obtain ⟨flag, hflag⟩ := mem_visited_of_run unconditional hrun hexecuted
    exact hnone _ hflag
  | foreignBecome group routes =>
    rw [foreignRuns] at hrun
    rw [visited, List.mem_singleton.mp hrun]
    rfl
  | become routes =>
    rw [foreignRuns] at hrun
    rw [visited, List.mem_singleton.mp hrun]
    rfl
  | sil site =>
    rw [foreignRuns] at hrun
    rw [visited, List.mem_singleton.mp hrun]
    rfl

theorem countP_sequenceRun {kind : ForeignStatement → Bool} {unconditional : Bool}
    {cursor : SourceNodeCursor} {index : Nat} {statements : List AuthoredEntryStatement}
    {run : List ForeignStatement} (hrun : run ∈ sequenceForeignRuns cursor index statements)
    (h : ∀ item ∈ sequenceVisited cursor unconditional index statements,
      kind item.1 = true → item.2 = true) :
    run.countP kind =
      (sequenceVisited cursor unconditional index statements).countP fun item => kind item.1 := by
  cases statements with
  | nil =>
    rw [sequenceForeignRuns] at hrun
    rw [sequenceVisited, List.mem_singleton.mp hrun]
    rfl
  | cons statement statements =>
    rw [sequenceForeignRuns] at hrun
    obtain ⟨first, hfirst, hrun⟩ := List.mem_flatMap.mp hrun
    obtain ⟨rest, hrest, rfl⟩ := List.mem_map.mp hrun
    rw [sequenceVisited] at h ⊢
    have hleft := countP_run hfirst fun item hitem => h item (List.mem_append_left _ hitem)
    have hright := countP_sequenceRun hrest fun item hitem => h item (List.mem_append_right _ hitem)
    rw [List.countP_append, List.countP_append, hleft, hright]

end

/-! ## one statement -/

section
variable {entry : EntryModel} {bindings : EntryBindings} {bound : BoundRoutes}
variable {id : CovenantGroupId} {group : CovenantGroup} {name : String} {output : InteractionId}

/-- what the declared actor of an output, or the actor of a route, stands for -/
inductive ActorMeaning where
  | named (name : ResolvedName)
  | local (id : LocalId)
  | stateField (index : Nat)

/-- the actor that a clause declares -/
inductive Declares (bindings : EntryBindings) (outputSite : NodeId) : ActorMeaning → Prop
  | named {name : ResolvedName} (target : bindings.actorTargets outputSite = some name) :
    Declares bindings outputSite (.named name)
  | local {id : LocalId} (target : bindings.localActorTargets outputSite = some (.local id)) :
    Declares bindings outputSite (.local id)
  | stateField {index : Nat}
    (target : bindings.localActorTargets outputSite = some (.stateField index)) :
    Declares bindings outputSite (.stateField index)

/-- the actor that a route names: a declaration, a variant of an enum, a local, or a state field,
through `self` or on its own -/
inductive RoutesTo (bindings : EntryBindings) (targetSite : NodeId) : ActorMeaning → Prop
  | source {name : ResolvedName} (site : bindings.sites targetSite = some (.source name)) :
    RoutesTo bindings targetSite (.named name)
  | variant {enumeration actor : DeclId}
    (site : bindings.sites targetSite = some (.enumVariant enumeration actor)) :
    RoutesTo bindings targetSite (.named (.declaration actor))
  | local {id : LocalId} (site : bindings.sites targetSite = some (.local id)) :
    RoutesTo bindings targetSite (.local id)
  | selfField {name : String} {index : Nat}
    (reference : bindings.routeActorReferences targetSite = some (some (.stateField name (some index)))) :
    RoutesTo bindings targetSite (.stateField index)
  | bareField {name : String} {index : Nat} (site : bindings.sites targetSite = some .actorField)
    (reference : bindings.routeActorReferences targetSite = some (some (.bareStateField name index))) :
    RoutesTo bindings targetSite (.stateField index)

theorem sameTarget_sound {outputSite targetSite : NodeId}
    (h : sameTarget bindings outputSite targetSite = true) :
    ∃ meaning, Declares bindings outputSite meaning ∧ RoutesTo bindings targetSite meaning := by
  unfold sameTarget at h
  split at h
  next expected actual htarget _ hsite =>
    rw [decide_eq_true_eq] at h
    exact ⟨_, .named htarget, .source (h ▸ hsite)⟩
  next expected enumeration actor htarget _ hsite =>
    rw [decide_eq_true_eq] at h
    exact ⟨_, .named htarget, .variant (h ▸ hsite)⟩
  next expected actual _ htarget hsite =>
    rw [decide_eq_true_eq] at h
    exact ⟨_, .local htarget, .local (h ▸ hsite)⟩
  next expected name actual _ htarget hreference =>
    rw [decide_eq_true_eq] at h
    rw [Option.join_eq_some_iff] at hreference
    exact ⟨_, .stateField htarget, .selfField (h ▸ hreference)⟩
  next expected name actual _ htarget hsite hreference =>
    rw [decide_eq_true_eq] at h
    rw [Option.join_eq_some_iff] at hreference
    exact ⟨_, .stateField htarget, .bareField hsite (h ▸ hreference)⟩
  next => cases h

theorem CovenantGroupId.output_injective (id : CovenantGroupId) : Function.Injective id.output := by
  intro i j h
  cases id with
  | current => exact InteractionId.currentOutput.inj h
  | existing index => exact (InteractionId.observedOutput.inj h).2
  | genesis index => exact (InteractionId.spawnedOutput.inj h).2

theorem CovenantGroup.nodup_outputIds : (group.outputIds id).Nodup := by
  unfold CovenantGroup.outputIds
  exact List.Nodup.map id.output_injective List.nodup_range

theorem CovenantGroup.mem_outputIds {interaction : EntryInteraction}
    (h : group.findOutput id output = some interaction) : output ∈ group.outputIds id := by
  unfold CovenantGroup.findOutput at h
  obtain ⟨index, hindex, -⟩ := Option.bind_eq_some_iff.mp h
  obtain ⟨hlt, hfound, -⟩ := List.findIdx?_eq_some_iff_getElem.mp hindex
  rw [decide_eq_true_eq] at hfound
  rw [← hfound]
  exact List.getElem_mem hlt

/-- one route validates one output of the group, against the actor that the output declares -/
structure RouteCovers (bindings : EntryBindings) (bound : BoundRoutes) (id : CovenantGroupId)
    (group : CovenantGroup) (route : EntryRoute) (output : InteractionId) : Prop where
  bound : bound.routeOutputs.get route.id = some (id, output)
  declared : ∃ interaction, group.findOutput id output = some interaction
  actor : ∃ outputSite targetSite stateSite meaning,
    bindings.actorTargetSite output = .ok outputSite ∧
    bindings.routeSites route.id = some (targetSite, stateSite) ∧
    Declares bindings outputSite meaning ∧ RoutesTo bindings targetSite meaning

theorem validateForeignRoute_ok {seen seen' : List InteractionId} {route : EntryRoute}
    (h : validateForeignRoute bindings bound id group name seen route = .ok seen') :
    ∃ output, seen' = output :: seen ∧ output ∉ seen ∧
      RouteCovers bindings bound id group route output := by
  unfold validateForeignRoute at h
  dsimp only at h
  obtain ⟨⟨routeGroup, output⟩, hroute, h⟩ := bind_eq_ok.mp h
  obtain ⟨_, hgroup, h⟩ := bind_eq_ok.mp h
  obtain ⟨interaction, hinteraction, h⟩ := bind_eq_ok.mp h
  obtain ⟨_, hseen, h⟩ := bind_eq_ok.mp h
  rw [okOr_eq_ok] at hroute hinteraction
  rw [rejectIf_eq_ok] at hgroup hseen
  cases hsuccessor : route.successor with
  | exactSelf =>
    rw [hsuccessor] at h
    cases h
  | constructed actor arity state =>
    rw [hsuccessor] at h
    dsimp only at h
    obtain ⟨_, _, h⟩ := bind_eq_ok.mp h
    obtain ⟨outputSite, houtputSite, h⟩ := bind_eq_ok.mp h
    obtain ⟨⟨targetSite, stateSite⟩, hsites, h⟩ := bind_eq_ok.mp h
    obtain ⟨_, htarget, h⟩ := bind_eq_ok.mp h
    rw [okOr_eq_ok] at hsites
    rw [rejectIf_eq_ok, Bool.not_eq_false] at htarget
    obtain ⟨meaning, hdeclares, hroutes⟩ := sameTarget_sound htarget
    have hsame : routeGroup = id := not_not.mp hgroup
    rw [hsame] at hroute
    exact ⟨output, (pure_eq_ok.mp h).symm, hseen, hroute, ⟨interaction, hinteraction⟩,
      outputSite, targetSite, stateSite, meaning, houtputSite, hsites, hdeclares, hroutes⟩

theorem validateRoutes_ok {routes : List EntryRoute} {seen : List InteractionId}
    (h : routes.foldlM (validateForeignRoute bindings bound id group name) [] = .ok seen) :
    ∃ outputs, List.Forall₂ (RouteCovers bindings bound id group) routes outputs ∧
      outputs.Nodup ∧ seen = outputs.reverse := by
  refine foldlM_ok (fun done seen => ∃ outputs, List.Forall₂ (RouteCovers bindings bound id group)
    done outputs ∧ outputs.Nodup ∧ seen = outputs.reverse) h ⟨[], .nil, List.nodup_nil, rfl⟩ ?_
  rintro done seen route seen' - ⟨outputs, hcovers, hnodup, rfl⟩ hroute
  obtain ⟨output, rfl, hnew, hcover⟩ := validateForeignRoute_ok hroute
  rw [List.mem_reverse] at hnew
  refine ⟨outputs ++ [output], List.rel_append hcovers (.cons hcover .nil), ?_, ?_⟩
  · refine List.nodup_append.mpr ⟨hnodup, List.nodup_singleton _, fun a ha b hb heq => ?_⟩
    rw [List.mem_singleton.mp hb] at heq
    exact hnew (heq ▸ ha)
  · rw [List.reverse_append]
    rfl

theorem requireCovered_ok {seen : List InteractionId}
    (h : requireCovered id group name seen = .ok ⟨⟩) : ∀ output ∈ group.outputIds id, output ∈ seen := by
  intro output houtput
  unfold requireCovered at h
  cases hfind : (group.outputs.items.zip (group.outputIds id)).find? fun output => output.2 ∉ seen with
  | some found =>
    rw [hfind] at h
    cases h
  | none =>
    have hlen : (group.outputIds id).length ≤ group.outputs.items.length := by
      unfold CovenantGroup.outputIds
      rw [List.length_map, List.length_range]
    rw [← List.map_snd_zip hlen] at houtput
    obtain ⟨pair, hpair, rfl⟩ := List.mem_map.mp houtput
    have hseen := List.find?_eq_none.mp hfind pair hpair
    rwa [decide_eq_true_eq, not_not] at hseen

/-- the group of a foreign statement -/
def statementGroup (bindings : EntryBindings) (bound : BoundRoutes) (statement : ForeignStatement) :
    Option CovenantGroupId := do
  let site ← bindings.find (statement.cursor.child .foreignGroup)
  bound.foreignGroups.get site

/-- **A statement validates each output of its group exactly once, against the actor that the clause
declares for it.** -/
def ForeignCovered (bindings : EntryBindings) (bound : BoundRoutes) (statement : ForeignStatement)
    (id : CovenantGroupId) (group : CovenantGroup) : Prop :=
  ∃ outputs, List.Forall₂ (RouteCovers bindings bound id group) statement.routes outputs ∧
    outputs.Perm (group.outputIds id)

theorem isSpawn_genesis {i : Nat} (h : entry.group (.genesis i) = some group) :
    group.isSpawn = true := by
  obtain ⟨⟨spawn, found⟩, hget, rfl⟩ := Option.map_eq_some_iff.mp h
  obtain ⟨candidate, -, hcandidate⟩ := List.mem_filterMap.mp (List.mem_of_getElem? hget)
  unfold CovenantGroup.isSpawn
  cases hcovenant : candidate.covenant with
  | genesis declared =>
    rw [hcovenant] at hcandidate
    cases hcandidate
    rw [hcovenant]
  | current =>
    rw [hcovenant] at hcandidate
    cases hcandidate
  | existing observe =>
    rw [hcovenant] at hcandidate
    cases hcandidate

theorem recordSpawn_ok {unconditional : Bool} {validated validated' : List CovenantGroupId}
    (h : recordSpawn id group name unconditional validated = .ok validated') :
    (group.isSpawn = true → unconditional = true ∧ id ∉ validated ∧ validated' = id :: validated) ∧
      (group.isSpawn = false → validated' = validated) := by
  unfold recordSpawn at h
  cases hspawn : group.isSpawn with
  | true =>
    rw [hspawn, if_pos rfl] at h
    obtain ⟨_, hflag, h⟩ := bind_eq_ok.mp h
    obtain ⟨_, hnew, h⟩ := bind_eq_ok.mp h
    rw [rejectIf_eq_ok, Bool.not_eq_false] at hflag
    rw [rejectIf_eq_ok] at hnew
    refine ⟨fun _ => ⟨hflag, hnew, (pure_eq_ok.mp h).symm⟩, ?_⟩
    intro hfalse
    cases hfalse
  | false =>
    rw [hspawn, if_neg Bool.false_ne_true] at h
    refine ⟨?_, fun _ => (pure_eq_ok.mp h).symm⟩
    intro htrue
    cases htrue

/-- what an accepted statement is -/
structure StatementAccepted (entry : EntryModel) (bindings : EntryBindings) (bound : BoundRoutes)
    (statement : ForeignStatement) (unconditional : Bool) (id : CovenantGroupId)
    (group : CovenantGroup) : Prop where
  found : statementGroup bindings bound statement = some id
  model : entry.group id = some group
  covered : ForeignCovered bindings bound statement id group
  spawn : group.isSpawn = true → unconditional = true

theorem validateForeignBecome_ok {statement : ForeignStatement} {unconditional : Bool}
    {validated validated' : List CovenantGroupId}
    (h : validateForeignBecome entry bindings bound validated statement unconditional =
      .ok validated') : ∃ id group,
        StatementAccepted entry bindings bound statement unconditional id group ∧
        (group.isSpawn = true → id ∉ validated ∧ validated' = id :: validated) ∧
        (group.isSpawn = false → validated' = validated) := by
  unfold validateForeignBecome at h
  obtain ⟨site, hsite, h⟩ := bind_eq_ok.mp h
  obtain ⟨id, hid, h⟩ := bind_eq_ok.mp h
  obtain ⟨group, hgroup, h⟩ := bind_eq_ok.mp h
  obtain ⟨recorded, hrecorded, h⟩ := bind_eq_ok.mp h
  obtain ⟨seen, hseen, h⟩ := bind_eq_ok.mp h
  obtain ⟨_, hcovered, hreturn⟩ := bind_eq_ok.mp h
  rw [okOr_eq_ok] at hsite hid hgroup
  obtain ⟨outputs, hcovers, hnodup, rfl⟩ := validateRoutes_ok hseen
  obtain ⟨hspawn, hobserve⟩ := recordSpawn_ok hrecorded
  rw [← pure_eq_ok.mp hreturn]
  refine ⟨id, group, ⟨?_, hgroup, ⟨outputs, hcovers, ?_⟩, fun hs => (hspawn hs).1⟩,
    fun hs => (hspawn hs).2, hobserve⟩
  · unfold statementGroup
    rw [hsite]
    exact hid
  · refine (List.perm_ext_iff_of_nodup hnodup group.nodup_outputIds).mpr fun output => ?_
    refine ⟨fun houtput => ?_, fun houtput => ?_⟩
    · obtain ⟨route, -, hroute⟩ := mem_of_forall₂_left (List.Forall₂.flip hcovers) houtput
      obtain ⟨interaction, hinteraction⟩ := hroute.declared
      exact CovenantGroup.mem_outputIds hinteraction
    · exact List.mem_reverse.mp (requireCovered_ok hcovered output houtput)

/-! ## one body -/

/-- the statements of a spawn -/
def ofSpawn (bindings : EntryBindings) (bound : BoundRoutes) (i : Nat)
    (statement : ForeignStatement) : Bool :=
  decide (statementGroup bindings bound statement = some (.genesis i))

/-- the statements visited so far are accepted, and each spawn in `validated` was met once -/
structure BodyAccepted (entry : EntryModel) (bindings : EntryBindings) (bound : BoundRoutes)
    (done : List (ForeignStatement × Bool)) (validated : List CovenantGroupId) : Prop where
  accepted : ∀ item ∈ done, ∃ id group,
    StatementAccepted entry bindings bound item.1 item.2 id group
  once : ∀ i, (done.countP fun item => ofSpawn bindings bound i item.1) =
    if .genesis i ∈ validated then 1 else 0

theorem BodyAccepted.nil : BodyAccepted entry bindings bound [] [] where
  accepted item hitem := absurd hitem List.not_mem_nil
  once i := by
    rw [if_neg List.not_mem_nil]
    rfl

theorem BodyAccepted.step {done : List (ForeignStatement × Bool)}
    {validated validated' : List CovenantGroupId} {item : ForeignStatement × Bool}
    (hdone : BodyAccepted entry bindings bound done validated)
    (h : validateForeignBecome entry bindings bound validated item.1 item.2 = .ok validated') :
    BodyAccepted entry bindings bound (done ++ [item]) validated' := by
  obtain ⟨id, group, haccepted, hspawn, hobserve⟩ := validateForeignBecome_ok h
  refine ⟨fun other hother => ?_, fun i => ?_⟩
  · obtain hother | hother := List.mem_append.mp hother
    · exact hdone.accepted other hother
    · rw [List.mem_singleton.mp hother]
      exact ⟨id, group, haccepted⟩
  · rw [List.countP_append, hdone.once i, List.countP_singleton]
    have hof : ofSpawn bindings bound i item.1 = decide (id = .genesis i) := by
      unfold ofSpawn
      simp only [haccepted.found, Option.some_inj]
    rw [hof]
    by_cases hi : id = .genesis i
    · -- the spawn itself, met here for the first time
      have hgenesis := isSpawn_genesis (hi ▸ haccepted.model)
      obtain ⟨hnew, rfl⟩ := hspawn hgenesis
      rw [hi] at hnew ⊢
      rw [if_neg hnew, if_pos List.mem_cons_self, decide_eq_true rfl, if_pos rfl]
    · have hsame : CovenantGroupId.genesis i ∈ validated' ↔ CovenantGroupId.genesis i ∈ validated := by
        cases hs : group.isSpawn with
        | true =>
          obtain ⟨-, rfl⟩ := hspawn hs
          rw [List.mem_cons, or_iff_right (Ne.symm hi)]
        | false => rw [hobserve hs]
      rw [decide_eq_false hi, if_neg Bool.false_ne_true, Nat.add_zero]
      simp only [hsame]

theorem bodyAccepted_of_fold {validated : List CovenantGroupId}
    {statements : List (ForeignStatement × Bool)}
    (h : statements.foldlM (fun validated item =>
      validateForeignBecome entry bindings bound validated item.1 item.2) [] = .ok validated) :
    BodyAccepted entry bindings bound statements validated :=
  foldlM_ok (BodyAccepted entry bindings bound) h .nil fun _ _ _ _ _ hdone hstep => hdone.step hstep

theorem genesis_mem_of_required {validated : List CovenantGroupId}
    (h : (entry.genesisGroups.map Prod.fst).zipIdx.forM (requireSpawnValidated validated) =
      .ok ⟨⟩) {i : Nat} (hi : i < entry.genesisGroups.length) :
    CovenantGroupId.genesis i ∈ validated := by
  have hlt : i < (entry.genesisGroups.map Prod.fst).length := by rwa [List.length_map]
  have hmem : ((entry.genesisGroups.map Prod.fst)[i], i) ∈
      (entry.genesisGroups.map Prod.fst).zipIdx :=
    List.mem_zipIdx_iff_getElem?.mpr (List.getElem?_eq_getElem hlt)
  have hrequired := forM_ok_of_mem h hmem
  unfold requireSpawnValidated at hrequired
  rw [rejectIf_eq_ok, not_not] at hrequired
  exact hrequired

/-! ## binding and lowering -/

/-- the site of a foreign group names the local of the group's clause -/
def GroupsBound (bindings : EntryBindings) (bound : BoundRoutes) : Prop :=
  ∀ site id, bound.foreignGroups.get site = some id →
    ∃ clause, bindings.sites site = some (.local clause) ∧ bindings.groupOf clause = some id

theorem bindForeignBecome_bound {bound' : BoundRoutes} {statement : ForeignStatement}
    (hbound : GroupsBound bindings bound)
    (h : bindForeignBecome entry bindings bound statement = .ok bound') :
    GroupsBound bindings bound' := by
  unfold bindForeignBecome at h
  obtain ⟨site, -, h⟩ := bind_eq_ok.mp h
  split at h
  next clause hclause =>
    split at h
    next => rwa [← pure_eq_ok.mp h]
    next id hid =>
      obtain ⟨group, -, h⟩ := bind_eq_ok.mp h
      obtain ⟨outputs, -, h⟩ := bind_eq_ok.mp h
      rw [← pure_eq_ok.mp h]
      intro other found hfound
      rw [BTreeMap.get_insert] at hfound
      split at hfound
      next heq =>
        rw [heq, ← Option.some_inj.mp hfound]
        exact ⟨clause, hclause, hid⟩
      next => exact hbound other found hfound
  next => rwa [← pure_eq_ok.mp h]

theorem bindForeignRoutes_bound {routeOutputs : BTreeMap Nat (CovenantGroupId × InteractionId)}
    (h : bindForeignRoutes entry bindings routeOutputs = .ok bound) :
    GroupsBound bindings bound := by
  unfold bindForeignRoutes at h
  rw [walk_body] at h
  refine foldlM_ok (fun _ bound => GroupsBound bindings bound) h ?_ ?_
  · intro site id hid
    cases hid
  · intro _ bound item bound' _ hbound hstep
    exact bindForeignBecome_bound hbound hstep

theorem forall₂_of_mapM_some {α β : Type} {f : α → Option β} {l : List α} {out : List β}
    (h : l.mapM f = some out) : List.Forall₂ (fun a b => f a = some b) l out := by
  induction l generalizing out with
  | nil =>
    cases h
    exact .nil
  | cons a l ih =>
    rw [List.mapM_cons] at h
    obtain ⟨b, hb, h⟩ := Option.bind_eq_some_iff.mp h
    obtain ⟨rest, hrest, h⟩ := Option.bind_eq_some_iff.mp h
    cases h
    exact .cons hb (ih hrest)

/-- **What a lowered statement validates: each output of its group exactly once, against the actor
of its clause.** -/
structure Lowered (id : CovenantGroupId) (group : CovenantGroup)
    (validations : List ForeignValidation) : Prop where
  outputs : (validations.map ForeignValidation.output).Perm (group.outputIds id)
  targets : ∀ validation ∈ validations, ∃ interaction,
    group.findOutput id validation.output = some interaction ∧
    validation.target = interaction.target

theorem directForeignRoute_eq_some {route : EntryRoute} {validation : ForeignValidation}
    (hcovers : RouteCovers bindings bound id group route output)
    (h : directForeignRoute bound id group route = some validation) :
    validation.output = output ∧ ∃ interaction,
      group.findOutput id output = some interaction ∧ validation.target = interaction.target := by
  unfold directForeignRoute at h
  obtain ⟨⟨routeGroup, outputId⟩, hroute, h⟩ := Option.bind_eq_some_iff.mp h
  rw [hcovers.bound] at hroute
  cases hroute
  dsimp only at h
  rw [if_neg (not_not.mpr rfl)] at h
  obtain ⟨interaction, hinteraction, h⟩ := Option.bind_eq_some_iff.mp h
  split at h
  next =>
    rw [← Option.some_inj.mp h]
    exact ⟨rfl, interaction, hinteraction, rfl⟩
  next => cases h
  next => cases h

theorem lowered_of_covered {statement : ForeignStatement} {validations : List ForeignValidation}
    (hfound : statementGroup bindings bound statement = some id)
    (hgroup : entry.group id = some group)
    (hcovered : ForeignCovered bindings bound statement id group)
    (h : directForeignBecome entry bindings bound statement = some validations) :
    Lowered id group validations := by
  obtain ⟨outputs, hcovers, hperm⟩ := hcovered
  have hroutes : statement.routes.mapM (directForeignRoute bound id group) = some validations := by
    unfold directForeignBecome at h
    unfold statementGroup at hfound
    obtain ⟨site, hsite, hid⟩ := Option.bind_eq_some_iff.mp hfound
    obtain ⟨site', hsite', h⟩ := Option.bind_eq_some_iff.mp h
    rw [hsite] at hsite'
    cases hsite'
    obtain ⟨id', hid', h⟩ := Option.bind_eq_some_iff.mp h
    rw [hid] at hid'
    cases hid'
    obtain ⟨group', hgroup', h⟩ := Option.bind_eq_some_iff.mp h
    rw [hgroup] at hgroup'
    cases hgroup'
    exact h
  have hall := forall₂_of_mapM_some hroutes
  -- the routes carry the outputs to the validations
  have hvalidations : List.Forall₂ (fun output (validation : ForeignValidation) =>
      validation.output = output ∧ ∃ interaction, group.findOutput id output = some interaction ∧
        validation.target = interaction.target) outputs validations := by
    refine forall₂_beside hcovers hall ?_
    intro route _ output validation hroute hvalidation
    exact directForeignRoute_eq_some hroute hvalidation
  refine ⟨?_, fun validation hvalidation => ?_⟩
  · have heq : validations.map ForeignValidation.output = outputs := by
      have hout : List.Forall₂ Eq outputs (validations.map ForeignValidation.output) :=
        List.forall₂_map_right_iff.mpr (hvalidations.imp fun _ _ h => h.1.symm)
      rw [List.forall₂_eq_eq_eq] at hout
      exact hout.symm
    rw [heq]
    exact hperm
  · obtain ⟨output, -, hout, interaction, hinteraction, htarget⟩ :=
      mem_of_forall₂_left (List.Forall₂.flip hvalidations) hvalidation
    exact ⟨interaction, hout ▸ hinteraction, htarget⟩

/-! ## exhaustiveness -/

/-- what an executed foreign statement does -/
structure StatementValidates (entry : EntryModel) (bindings : EntryBindings) (bound : BoundRoutes)
    (statement : ForeignStatement) (id : CovenantGroupId) (group : CovenantGroup) : Prop where
  found : statementGroup bindings bound statement = some id
  clause : ∃ site clause, bindings.find (statement.cursor.child .foreignGroup) = some site ∧
    bindings.sites site = some (.local clause) ∧ bindings.groupOf clause = some id
  model : entry.group id = some group
  covered : ForeignCovered bindings bound statement id group
  lowered : ∀ validations, directForeignBecome entry bindings bound statement = some validations →
    Lowered id group validations

theorem statementValidates_of_accepted {statement : ForeignStatement} {unconditional : Bool}
    (hbound : GroupsBound bindings bound)
    (h : StatementAccepted entry bindings bound statement unconditional id group) :
    StatementValidates entry bindings bound statement id group := by
  refine ⟨h.found, ?_, h.model, h.covered, fun validations hvalidations => ?_⟩
  · have hfound := h.found
    unfold statementGroup at hfound
    obtain ⟨site, hsite, hid⟩ := Option.bind_eq_some_iff.mp hfound
    obtain ⟨clause, hclause, hgroup⟩ := hbound site id hid
    exact ⟨site, clause, hsite, hclause, hgroup⟩
  · exact lowered_of_covered h.found h.model h.covered hvalidations

/-- **Every run of an accepted body validates each spawn exactly once, and each foreign statement that
it executes validates every output of its group exactly once, against the actor of the clause.** -/
theorem foreignRoutes_exhaustive {routeOutputs : BTreeMap Nat (CovenantGroupId × InteractionId)}
    (hbind : bindForeignRoutes entry bindings routeOutputs = .ok bound)
    (h : validateForeignRouteCoverage entry bindings bound = .ok ⟨⟩) {run : List ForeignStatement}
    (hrun : run ∈ bodyRuns entry.body) :
    (∀ i < entry.genesisGroups.length, run.countP (ofSpawn bindings bound i) = 1) ∧
      ∀ statement ∈ run, ∃ id group,
        StatementValidates entry bindings bound statement id group := by
  unfold validateForeignRouteCoverage at h
  rw [walk_body] at h
  obtain ⟨validated, hvalidated, hrequired⟩ := bind_eq_ok.mp h
  have hbody := bodyAccepted_of_fold hvalidated
  have hbound := bindForeignRoutes_bound hbind
  refine ⟨fun i hi => ?_, fun statement hstatement => ?_⟩
  · -- a statement of a spawn stands outside of every branch
    have houtside : ∀ item ∈ bodyVisited entry.body, ofSpawn bindings bound i item.1 = true →
        item.2 = true := by
      intro item hitem hkind
      obtain ⟨id, group, haccepted⟩ := hbody.accepted item hitem
      have hid : statementGroup bindings bound item.1 = some (.genesis i) := of_decide_eq_true hkind
      rw [haccepted.found, Option.some_inj] at hid
      exact haccepted.spawn (isSpawn_genesis (hid ▸ haccepted.model))
    rw [countP_sequenceRun hrun houtside]
    have honce := hbody.once i
    rwa [if_pos (genesis_mem_of_required hrequired hi)] at honce
  · obtain ⟨flag, hflag⟩ := mem_sequenceVisited_of_run true hrun hstatement
    obtain ⟨id, group, haccepted⟩ := hbody.accepted _ hflag
    exact ⟨id, group, statementValidates_of_accepted hbound haccepted⟩

/-! ## an example -/

/-- an entry that opens a vault, and renews the player that it observes on one of its branches -/
def openEntry : EntryModel where
  name := "open"
  kind := .leader
  current := ⟨.current, .empty, .empty⟩
  foreign := [
    ⟨.existing ⟨"other"⟩, .empty, ⟨[⟨"seen", .static [.inApp "Player"], .one, .fromStart 0⟩], rfl⟩⟩,
    ⟨.genesis ⟨"fresh", "Safe"⟩, .empty,
      ⟨[⟨"vault", .static [.inApp "Vault"], .one, .fromStart 0⟩], rfl⟩⟩]
  templateSelectors := []
  body := [
    .ifElse ⟨0⟩ (.foreignBecome "other" [⟨1, "seen", .constructed (.fixed "Player") .one ⟨1⟩⟩]) none,
    .block [.foreignBecome "fresh" [⟨2, "vault", .constructed (.fixed "Vault") .one ⟨2⟩⟩]],
    .become []]
  analysis := _
  analyzed := rfl
  delegateEmits := nofun

def openBindings : EntryBindings where
  find cursor := [
    ([.body, .statement 0, .thenBranch, .foreignGroup], 1),
    ([.body, .statement 1, .statement 0, .foreignGroup], 2),
    ([.observe 0, .observedOutput 0, .actorTarget], 3),
    ([.spawn 0, .spawnOutput 0, .actorTarget], 4)].lookup cursor
  routeSites route := [(1, 5, 6), (2, 7, 8)].lookup route
  sites site := [
    (1, .local 10), (2, .local 11), (5, .source (.declaration "Player")),
    (7, .enumVariant "Kind" "Vault")].lookup site
  entryObserves := [(0, 10)]
  entrySpawns := [(0, 11)]
  actorTargets site := [(3, .declaration "Player"), (4, .declaration "Vault")].lookup site
  localActorTargets _ := none
  routeActorReferences _ := none
  isActor _ := true
  memberDisplayName _ := ""
  actorText _ := ""
  targetText _ := ""

theorem foreignRoutes_exhaustive_open : ∃ bound, (bodyRuns openEntry.body).length = 2 ∧
    ∀ run ∈ bodyRuns openEntry.body,
      (∀ i < openEntry.genesisGroups.length, run.countP (ofSpawn openBindings bound i) = 1) ∧
        ∀ statement ∈ run, ∃ id group,
          StatementValidates openEntry openBindings bound statement id group := by
  have haccepted : (do
      let bound ← (bodyVisited openEntry.body).foldlM (fun bound (item : ForeignStatement × Bool) =>
        bindForeignBecome openEntry openBindings bound item.1) ⟨∅, ∅⟩
      let validated ← (bodyVisited openEntry.body).foldlM (fun validated
        (item : ForeignStatement × Bool) =>
        validateForeignBecome openEntry openBindings bound validated item.1 item.2) []
      (openEntry.genesisGroups.map Prod.fst).zipIdx.forM (requireSpawnValidated validated)
      ).isOk = true := by decide +kernel
  obtain ⟨_, haccepted⟩ := exists_ok_of_isOk haccepted
  obtain ⟨bound, hbind, haccepted⟩ := bind_eq_ok.mp haccepted
  refine ⟨bound, by decide +kernel, fun run hrun => ?_⟩
  have hbound : bindForeignRoutes openEntry openBindings ∅ = .ok bound := by
    unfold bindForeignRoutes
    rw [walk_body]
    exact hbind
  refine foreignRoutes_exhaustive hbound ?_ hrun
  unfold validateForeignRouteCoverage
  rw [walk_body]
  exact haccepted

end

end Argent.Model
