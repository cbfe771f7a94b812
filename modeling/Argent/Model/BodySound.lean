import Argent.Model.Body

/-!
# The paths of an entry body

The control flow of a body, independently of its analysis: which statements a choice of branches
reaches, and where its `become` stands.

* `paths`, `sequencePaths`       what is reached for every choice of branches;
* `becomes`, `sequenceBecomes`   the `become` statements in source order;
* `Outcome`                      what a result of the analysis says about a set of paths;
* `analyze_paths`                **a body is accepted exactly when it has no `become`, or every path
                                 ends in its only one**.
-/

set_option linter.unusedSectionVars false

namespace Argent.Model
open Argent.Fallible

/-- what a path meets: a `become` with its routes, or any other statement, block or branch -/
inductive PathEvent where
  | become (routes : List EntryRoute)
  | reached
deriving DecidableEq

abbrev Path := List PathEvent

/-! ## paths and `become` statements -/

/-- every path of one set followed by every path of the other -/
def followedBy (P Q : List Path) : List Path := P.flatMap fun p => Q.map fun q => p ++ q

mutual

/-- the paths through a statement; an omitted `else` is a path that reaches nothing more -/
def paths : AuthoredEntryStatement → List Path
  | .block statements => followedBy [[.reached]] (sequencePaths statements)
  | .ifElse _ thenBranch elseBranch =>
    followedBy [[.reached]] (paths thenBranch ++ optionalPaths elseBranch)
  | .become routes => [[.become routes]]
  | .foreignBecome _ _ | .sil _ => [[.reached]]

def optionalPaths : Option AuthoredEntryStatement → List Path
  | none => [[]]
  | some statement => paths statement

def sequencePaths : List AuthoredEntryStatement → List Path
  | [] => [[]]
  | statement :: statements => followedBy (paths statement) (sequencePaths statements)

end

mutual

/-- the routes of the `become` statements of a statement, in source order -/
def becomes : AuthoredEntryStatement → List (List EntryRoute)
  | .block statements => sequenceBecomes statements
  | .ifElse _ thenBranch elseBranch => becomes thenBranch ++ optionalBecomes elseBranch
  | .become routes => [routes]
  | .foreignBecome _ _ | .sil _ => []

def optionalBecomes : Option AuthoredEntryStatement → List (List EntryRoute)
  | none => []
  | some statement => becomes statement

def sequenceBecomes : List AuthoredEntryStatement → List (List EntryRoute)
  | [] => []
  | statement :: statements => becomes statement ++ sequenceBecomes statements

end

/-! ## kinds of paths -/

namespace Path

/-- no `become` executes -/
def Plain (p : Path) : Prop := ∀ routes, .become routes ∉ p

/-- exactly one `become` executes, and nothing is reached after it -/
def Terminal (p : Path) : Prop := ∃ (before : Path) (routes : List EntryRoute),
  before.Plain ∧ p = before ++ [.become routes]

/-- something is reached after a `become` -/
def Overrun (p : Path) : Prop := ∃ (before : Path) (routes : List EntryRoute) (after : Path),
  after ≠ [] ∧ p = before ++ .become routes :: after

theorem plain_append {p q : Path} : Plain (p ++ q) ↔ p.Plain ∧ q.Plain := by
  unfold Plain
  rw [← forall_and]
  refine forall_congr' fun routes => ?_
  rw [List.mem_append, not_or]

theorem plain_reached : Plain [.reached] := fun routes h => by
  cases List.mem_singleton.mp h

theorem Terminal.not_plain {p : Path} (h : p.Terminal) : ¬ p.Plain := by
  obtain ⟨before, routes, _, rfl⟩ := h
  intro hplain
  exact hplain routes (List.mem_append_right _ List.mem_cons_self)

theorem Overrun.not_plain {p : Path} (h : p.Overrun) : ¬ p.Plain := by
  obtain ⟨before, routes, after, _, rfl⟩ := h
  intro hplain
  exact hplain routes (List.mem_append_right _ List.mem_cons_self)

/-- a path that goes on after a `become` does not end in its only one -/
theorem Overrun.not_terminal {p : Path} (h : p.Overrun) : ¬ p.Terminal := by
  obtain ⟨before, routes, after, hafter, rfl⟩ := h
  rintro ⟨before', routes', hplain, heq⟩
  obtain ⟨last, a, rfl⟩ := (List.eq_nil_or_concat after).resolve_left hafter
  have hinit : before ++ .become routes :: last = before' := by
    have heq' : (before ++ .become routes :: last) ++ [a] = before' ++ [.become routes'] := by
      rw [← heq, List.append_assoc, List.concat_eq_append]
      rfl
    exact (List.append_inj' heq' rfl).1
  apply hplain routes
  rw [← hinit]
  exact List.mem_append_right _ List.mem_cons_self

theorem Plain.terminal {p q : Path} (hp : p.Plain) (hq : q.Terminal) : Terminal (p ++ q) := by
  obtain ⟨before, routes, hplain, rfl⟩ := hq
  exact ⟨p ++ before, routes, plain_append.mpr ⟨hp, hplain⟩, (List.append_assoc ..).symm⟩

theorem Overrun.append_left {q : Path} (p : Path) (hq : q.Overrun) : Overrun (p ++ q) := by
  obtain ⟨before, routes, after, hafter, rfl⟩ := hq
  exact ⟨p ++ before, routes, after, hafter, (List.append_assoc ..).symm⟩

/-- a path on which a `become` executes goes on after it -/
theorem overrun_append {p q : Path} (hp : ¬ p.Plain) (hq : q ≠ []) : Overrun (p ++ q) := by
  unfold Plain at hp
  push Not at hp
  obtain ⟨routes, hmem⟩ := hp
  obtain ⟨before, after, rfl⟩ := List.append_of_mem hmem
  refine ⟨before, routes, after ++ q, List.append_ne_nil_of_right_ne_nil _ hq, ?_⟩
  rw [List.append_assoc, List.cons_append]

end Path

/-! ## sets of paths -/

theorem mem_followedBy {P Q : List Path} {x : Path} :
    x ∈ followedBy P Q ↔ ∃ p ∈ P, ∃ q ∈ Q, p ++ q = x := by
  unfold followedBy
  simp only [List.mem_flatMap, List.mem_map]

theorem append_mem_followedBy {P Q : List Path} {p q : Path} (hp : p ∈ P) (hq : q ∈ Q) :
    p ++ q ∈ followedBy P Q := mem_followedBy.mpr ⟨p, hp, q, hq, rfl⟩

theorem followedBy_ne_nil {P Q : List Path} (hP : P ≠ []) (hQ : Q ≠ []) : followedBy P Q ≠ [] := by
  obtain ⟨p, hp⟩ := List.exists_mem_of_ne_nil P hP
  obtain ⟨q, hq⟩ := List.exists_mem_of_ne_nil Q hQ
  exact List.ne_nil_of_mem (append_mem_followedBy hp hq)

/-- a `become` executes on one path and not on another -/
def Mixed (P : List Path) : Prop := (∃ p ∈ P, ¬ p.Plain) ∧ ∃ p ∈ P, p.Plain

/-- no completion makes every path end in its only `become` -/
def Spoiled (P : List Path) : Prop := (∃ p ∈ P, p.Overrun) ∨ Mixed P

theorem Spoiled.mono {P Q : List Path} (h : Spoiled P) (hsub : ∀ p ∈ P, p ∈ Q) : Spoiled Q := by
  obtain ⟨p, hp, hover⟩ | ⟨⟨p, hp, hbecome⟩, q, hq, hplain⟩ := h
  · exact Or.inl ⟨p, hsub p hp, hover⟩
  · exact Or.inr ⟨⟨p, hsub p hp, hbecome⟩, q, hsub q hq, hplain⟩

theorem Spoiled.exists_become {P : List Path} (h : Spoiled P) : ∃ p ∈ P, ¬ p.Plain := by
  obtain ⟨p, hp, hover⟩ | ⟨hbecome, _⟩ := h
  · exact ⟨p, hp, hover.not_plain⟩
  · exact hbecome

theorem Spoiled.not_terminal {P : List Path} (h : Spoiled P) : ¬ ∀ p ∈ P, p.Terminal := by
  intro hall
  obtain ⟨p, hp, hover⟩ | ⟨_, p, hp, hplain⟩ := h
  · exact hover.not_terminal (hall p hp)
  · exact (hall p hp).not_plain hplain

theorem Spoiled.after {P Q : List Path} (hP : ∀ p ∈ P, p.Plain) (hne : P ≠ [])
    (h : Spoiled Q) : Spoiled (followedBy P Q) := by
  obtain ⟨p, hp⟩ := List.exists_mem_of_ne_nil P hne
  obtain ⟨q, hq, hover⟩ | ⟨⟨q, hq, hbecome⟩, q', hq', hplain⟩ := h
  · exact Or.inl ⟨_, append_mem_followedBy hp hq, hover.append_left p⟩
  · refine Or.inr ⟨⟨_, append_mem_followedBy hp hq, ?_⟩, _, append_mem_followedBy hp hq', ?_⟩
    · rw [Path.plain_append]
      exact fun h => hbecome h.2
    · exact Path.plain_append.mpr ⟨hP p hp, hplain⟩

theorem spoiled_followedBy {P Q : List Path} (h : ∃ p ∈ P, ¬ p.Plain) {q : Path} (hq : q ∈ Q)
    (hne : q ≠ []) : Spoiled (followedBy P Q) := by
  obtain ⟨p, hp, hbecome⟩ := h
  exact Or.inl ⟨_, append_mem_followedBy hp hq, Path.overrun_append hbecome hne⟩

/-! ## every path reaches something -/

mutual

theorem paths_ne_nil (statement : AuthoredEntryStatement) : paths statement ≠ [] := by
  cases statement with
  | block statements =>
    rw [paths]
    exact followedBy_ne_nil (List.cons_ne_nil _ _) (sequencePaths_ne_nil statements)
  | ifElse condition thenBranch elseBranch =>
    rw [paths]
    refine followedBy_ne_nil (List.cons_ne_nil _ _) ?_
    exact List.append_ne_nil_of_left_ne_nil (paths_ne_nil thenBranch) _
  | become routes => rw [paths]; exact List.cons_ne_nil _ _
  | foreignBecome group routes => rw [paths]; exact List.cons_ne_nil _ _
  | sil site => rw [paths]; exact List.cons_ne_nil _ _

theorem sequencePaths_ne_nil (statements : List AuthoredEntryStatement) :
    sequencePaths statements ≠ [] := by
  cases statements with
  | nil => rw [sequencePaths]; exact List.cons_ne_nil _ _
  | cons statement statements =>
    rw [sequencePaths]
    exact followedBy_ne_nil (paths_ne_nil statement) (sequencePaths_ne_nil statements)

end

theorem optionalPaths_ne_nil (statement : Option AuthoredEntryStatement) :
    optionalPaths statement ≠ [] := by
  cases statement with
  | none => rw [optionalPaths]; exact List.cons_ne_nil _ _
  | some statement => rw [optionalPaths]; exact paths_ne_nil statement

theorem path_ne_nil {statement : AuthoredEntryStatement} {p : Path} (h : p ∈ paths statement) :
    p ≠ [] := by
  have hafter : ∀ {Q : List Path}, p ∈ followedBy [[.reached]] Q → p ≠ [] := by
    intro Q hmem
    obtain ⟨q, hq, r, hr, rfl⟩ := mem_followedBy.mp hmem
    rw [List.mem_singleton.mp hq]
    exact List.cons_ne_nil _ _
  cases statement with
  | block statements => rw [paths] at h; exact hafter h
  | ifElse condition thenBranch elseBranch => rw [paths] at h; exact hafter h
  | become routes => rw [paths] at h; rw [List.mem_singleton.mp h]; exact List.cons_ne_nil _ _
  | foreignBecome group routes =>
    rw [paths] at h; rw [List.mem_singleton.mp h]; exact List.cons_ne_nil _ _
  | sil site => rw [paths] at h; rw [List.mem_singleton.mp h]; exact List.cons_ne_nil _ _

/-! ## the analysis -/

/-- what a result of the analysis says about the paths and the `become` statements it is about -/
inductive Outcome (P : List Path) (routeSets : List (List EntryRoute)) :
    Except String TerminalResult → Prop
  | plain (h : ∀ p ∈ P, p.Plain) (none : routeSets = []) : Outcome P routeSets (.ok .empty)
  | terminal (h : ∀ p ∈ P, p.Terminal) : Outcome P routeSets (.ok ⟨true, true, routeSets⟩)
  | mixed (h : Mixed P) : Outcome P routeSets (.ok ⟨true, false, routeSets⟩)
  | rejected (message : String) (h : Spoiled P) : Outcome P routeSets (.error message)

section
variable {P Q : List Path} {sets sets' : List (List EntryRoute)}

theorem Outcome.after (hP : ∀ p ∈ P, p.Plain) (hne : P ≠ []) {r : Except String TerminalResult}
    (h : Outcome Q sets r) : Outcome (followedBy P Q) sets r := by
  have hsplit : ∀ {x}, x ∈ followedBy P Q → ∃ p, p.Plain ∧ ∃ q ∈ Q, p ++ q = x := by
    intro x hx
    obtain ⟨p, hp, q, hq, heq⟩ := mem_followedBy.mp hx
    exact ⟨p, hP p hp, q, hq, heq⟩
  cases h with
  | plain h none =>
    refine .plain (fun x hx => ?_) none
    obtain ⟨p, hp, q, hq, rfl⟩ := hsplit hx
    exact Path.plain_append.mpr ⟨hp, h q hq⟩
  | terminal h =>
    refine .terminal fun x hx => ?_
    obtain ⟨p, hp, q, hq, rfl⟩ := hsplit hx
    exact hp.terminal (h q hq)
  | mixed h =>
    refine .mixed ?_
    obtain ⟨p, hp⟩ := List.exists_mem_of_ne_nil P hne
    obtain ⟨⟨q, hq, hbecome⟩, q', hq', hplain⟩ := h
    refine ⟨⟨_, append_mem_followedBy hp hq, ?_⟩, _, append_mem_followedBy hp hq', ?_⟩
    · rw [Path.plain_append]
      exact fun h => hbecome h.2
    · exact Path.plain_append.mpr ⟨hP p hp, hplain⟩
  | rejected message h => exact .rejected message (h.after hP hne)

/-- the result of a branch statement out of the results of its two branches -/
def branchResult (thenResult elseResult : TerminalResult) : TerminalResult where
  containsBecome := thenResult.containsBecome || elseResult.containsBecome
  allPathsTerminal := thenResult.allPathsTerminal && elseResult.allPathsTerminal
  terminalRouteSets := thenResult.terminalRouteSets ++ elseResult.terminalRouteSets

/-- either branch may be taken -/
theorem Outcome.branch (hP : P ≠ []) (hQ : Q ≠ []) {r r' : Except String TerminalResult}
    (h : Outcome P sets r) (h' : Outcome Q sets' r') :
    Outcome (P ++ Q) (sets ++ sets')
      (r >>= fun thenResult => r' >>= fun elseResult =>
        pure (branchResult thenResult elseResult)) := by
  obtain ⟨p, hp⟩ := List.exists_mem_of_ne_nil P hP
  obtain ⟨q, hq⟩ := List.exists_mem_of_ne_nil Q hQ
  have hleft : ∀ x ∈ P, x ∈ P ++ Q := fun x => List.mem_append_left Q
  have hright : ∀ x ∈ Q, x ∈ P ++ Q := fun x => List.mem_append_right P
  cases h with
  | rejected message h => exact .rejected message (h.mono hleft)
  | plain h none =>
    subst none
    cases h' with
    | rejected message h' => exact .rejected message (h'.mono hright)
    | plain h' none' =>
      subst none'
      exact .plain (List.forall_mem_append.mpr ⟨h, h'⟩) rfl
    | terminal h' =>
      exact .mixed ⟨⟨q, hright q hq, (h' q hq).not_plain⟩, p, hleft p hp, h p hp⟩
    | mixed h' =>
      obtain ⟨⟨x, hx, hbecome⟩, _⟩ := h'
      exact .mixed ⟨⟨x, hright x hx, hbecome⟩, p, hleft p hp, h p hp⟩
  | terminal h =>
    cases h' with
    | rejected message h' => exact .rejected message (h'.mono hright)
    | plain h' none' =>
      subst none'
      exact .mixed ⟨⟨p, hleft p hp, (h p hp).not_plain⟩, q, hright q hq, h' q hq⟩
    | terminal h' => exact .terminal (List.forall_mem_append.mpr ⟨h, h'⟩)
    | mixed h' =>
      obtain ⟨_, y, hy, hplain⟩ := h'
      exact .mixed ⟨⟨p, hleft p hp, (h p hp).not_plain⟩, y, hright y hy, hplain⟩
  | mixed h =>
    obtain ⟨⟨x, hx, hbecome⟩, y, hy, hplain⟩ := h
    have hmixed : Mixed (P ++ Q) := ⟨⟨x, hleft x hx, hbecome⟩, y, hleft y hy, hplain⟩
    cases h' with
    | rejected message h' => exact .rejected message (h'.mono hright)
    | plain h' none' => subst none'; exact .mixed hmixed
    | terminal h' => exact .mixed hmixed
    | mixed h' => exact .mixed hmixed

end

theorem plain_reached : ∀ p ∈ [[PathEvent.reached]], Path.Plain p := by
  intro p hp
  rw [List.mem_singleton.mp hp]
  exact Path.plain_reached

theorem Spoiled.cons {statement : AuthoredEntryStatement} (h : Spoiled (paths statement))
    (statements : List AuthoredEntryStatement) :
    Spoiled (sequencePaths (statement :: statements)) := by
  rw [sequencePaths]
  cases statements with
  | nil =>
    refine h.mono fun p hp => ?_
    rw [sequencePaths, ← List.append_nil p]
    exact append_mem_followedBy hp List.mem_cons_self
  | cons next rest =>
    obtain ⟨q, hq⟩ := List.exists_mem_of_ne_nil _ (sequencePaths_ne_nil (next :: rest))
    refine spoiled_followedBy h.exists_become hq ?_
    rw [sequencePaths] at hq
    obtain ⟨x, hx, y, _, rfl⟩ := mem_followedBy.mp hq
    exact List.append_ne_nil_of_left_ne_nil (path_ne_nil hx) y

mutual

theorem terminalResult_outcome (statement : AuthoredEntryStatement) :
    Outcome (paths statement) (becomes statement) (terminalResult statement) := by
  cases statement with
  | block statements =>
    rw [paths, becomes, terminalResult]
    exact (sequence_outcome statements).1.after plain_reached (List.cons_ne_nil _ _)
  | ifElse condition thenBranch elseBranch =>
    rw [paths, becomes, terminalResult]
    refine Outcome.after plain_reached (List.cons_ne_nil _ _) ?_
    exact (terminalResult_outcome thenBranch).branch (paths_ne_nil thenBranch)
      (optionalPaths_ne_nil elseBranch) (optionalResult_outcome elseBranch)
  | become routes =>
    rw [paths, becomes, terminalResult]
    refine .terminal fun p hp => ⟨[], routes, fun _ h => absurd h List.not_mem_nil, ?_⟩
    exact List.mem_singleton.mp hp
  | foreignBecome group routes =>
    rw [paths, becomes, terminalResult]
    exact .plain plain_reached rfl
  | sil site =>
    rw [paths, becomes, terminalResult]
    exact .plain plain_reached rfl

theorem optionalResult_outcome (statement : Option AuthoredEntryStatement) :
    Outcome (optionalPaths statement) (optionalBecomes statement) (optionalResult statement) := by
  cases statement with
  | none =>
    rw [optionalPaths, optionalBecomes, optionalResult]
    refine .plain (fun p hp => ?_) rfl
    rw [List.mem_singleton.mp hp]
    exact fun _ h => absurd h List.not_mem_nil
  | some statement =>
    rw [optionalPaths, optionalBecomes, optionalResult]
    exact terminalResult_outcome statement

/-- a sequence that is accepted has no `become`, or ends every path in one -/
theorem sequence_outcome (statements : List AuthoredEntryStatement) :
    Outcome (sequencePaths statements) (sequenceBecomes statements)
        (analyzeAuthoredSequence .empty statements) ∧
      ∀ result, analyzeAuthoredSequence .empty statements = .ok result →
        result.containsBecome = result.allPathsTerminal := by
  cases statements with
  | nil =>
    rw [sequencePaths, sequenceBecomes, analyzeAuthoredSequence]
    refine ⟨.plain (fun p hp => ?_) rfl, fun result h => ?_⟩
    · rw [List.mem_singleton.mp hp]
      exact fun _ h => absurd h List.not_mem_nil
    · cases h
      rfl
  | cons statement statements =>
    have hstatement := terminalResult_outcome statement
    have hrest := sequence_outcome statements
    rw [analyzeAuthoredSequence, sequenceBecomes]
    generalize terminalResult statement = r at hstatement ⊢
    cases hstatement with
    | rejected message h =>
      refine ⟨.rejected message (h.cons statements), fun result heq => ?_⟩
      cases heq
    | mixed h =>
      refine ⟨.rejected _ (Spoiled.cons (Or.inr h) statements), fun result heq => ?_⟩
      cases heq
    | plain h none =>
      rw [none, List.nil_append, sequencePaths]
      exact ⟨hrest.1.after h (paths_ne_nil statement), hrest.2⟩
    | terminal h =>
      cases statements with
      | nil =>
        rw [sequenceBecomes, List.append_nil, sequencePaths, sequencePaths]
        refine ⟨.terminal fun x hx => ?_, fun result heq => ?_⟩
        · obtain ⟨p, hp, q, hq, rfl⟩ := mem_followedBy.mp hx
          rw [List.mem_singleton.mp hq, List.append_nil]
          exact h p hp
        · cases heq
          rfl
      | cons next rest =>
        refine ⟨.rejected _ ?_, fun result heq => ?_⟩
        · -- the next statement is reached after the `become` of every path
          rw [sequencePaths]
          obtain ⟨p, hp⟩ := List.exists_mem_of_ne_nil _ (paths_ne_nil statement)
          obtain ⟨q, hq⟩ := List.exists_mem_of_ne_nil _ (sequencePaths_ne_nil (next :: rest))
          refine spoiled_followedBy ⟨p, hp, (h p hp).not_plain⟩ hq ?_
          rw [sequencePaths] at hq
          obtain ⟨x, hx, y, _, rfl⟩ := mem_followedBy.mp hq
          exact List.append_ne_nil_of_left_ne_nil (path_ne_nil hx) y
        · cases heq

end

/-! ## the `become` statements of a path -/

mutual

theorem plain_of_becomes {statement : AuthoredEntryStatement} (h : becomes statement = []) :
    ∀ p ∈ paths statement, p.Plain := by
  cases statement with
  | block statements =>
    rw [becomes] at h
    rw [paths]
    intro x hx
    obtain ⟨p, hp, q, hq, rfl⟩ := mem_followedBy.mp hx
    exact Path.plain_append.mpr ⟨plain_reached p hp, plain_of_sequenceBecomes h q hq⟩
  | ifElse condition thenBranch elseBranch =>
    rw [becomes] at h
    obtain ⟨hthen, helse⟩ := List.append_eq_nil_iff.mp h
    rw [paths]
    intro x hx
    obtain ⟨p, hp, q, hq, rfl⟩ := mem_followedBy.mp hx
    refine Path.plain_append.mpr ⟨plain_reached p hp, ?_⟩
    obtain hq | hq := List.mem_append.mp hq
    · exact plain_of_becomes hthen q hq
    · exact plain_of_optionalBecomes helse q hq
  | become routes => rw [becomes] at h; cases h
  | foreignBecome group routes => rw [paths]; exact plain_reached
  | sil site => rw [paths]; exact plain_reached

theorem plain_of_optionalBecomes {statement : Option AuthoredEntryStatement}
    (h : optionalBecomes statement = []) : ∀ p ∈ optionalPaths statement, p.Plain := by
  cases statement with
  | none =>
    rw [optionalPaths]
    intro p hp
    rw [List.mem_singleton.mp hp]
    exact fun _ h => absurd h List.not_mem_nil
  | some statement =>
    rw [optionalBecomes] at h
    rw [optionalPaths]
    exact plain_of_becomes h

theorem plain_of_sequenceBecomes {statements : List AuthoredEntryStatement}
    (h : sequenceBecomes statements = []) : ∀ p ∈ sequencePaths statements, p.Plain := by
  cases statements with
  | nil =>
    rw [sequencePaths]
    intro p hp
    rw [List.mem_singleton.mp hp]
    exact fun _ h => absurd h List.not_mem_nil
  | cons statement statements =>
    rw [sequenceBecomes] at h
    obtain ⟨hfirst, hrest⟩ := List.append_eq_nil_iff.mp h
    rw [sequencePaths]
    intro x hx
    obtain ⟨p, hp, q, hq, rfl⟩ := mem_followedBy.mp hx
    exact Path.plain_append.mpr ⟨plain_of_becomes hfirst p hp, plain_of_sequenceBecomes hrest q hq⟩

end

/-- what an accepted sequence is, and that it lists its `become` statements -/
theorem analyzeAuthoredSequence_iff (body : List AuthoredEntryStatement) :
    ((∃ result, analyzeAuthoredSequence .empty body = .ok result) ↔
      sequenceBecomes body = [] ∨ ∀ p ∈ sequencePaths body, p.Terminal) ∧
    ∀ result, analyzeAuthoredSequence .empty body = .ok result →
      result.terminalRouteSets = sequenceBecomes body := by
  obtain ⟨houtcome, hnotMixed⟩ := sequence_outcome body
  generalize analyzeAuthoredSequence .empty body = r at houtcome hnotMixed
  cases houtcome with
  | plain h none =>
    refine ⟨⟨fun _ => Or.inl none, fun _ => ⟨_, rfl⟩⟩, fun result heq => ?_⟩
    cases heq
    exact none.symm
  | terminal h =>
    refine ⟨⟨fun _ => Or.inr h, fun _ => ⟨_, rfl⟩⟩, fun result heq => ?_⟩
    cases heq
    rfl
  | mixed h => cases hnotMixed _ rfl
  | rejected message h =>
    refine ⟨⟨fun ⟨result, heq⟩ => ?_, fun hok => ?_⟩, fun result heq => ?_⟩
    · cases heq
    · obtain hnone | hterminal := hok
      · obtain ⟨p, hp, hbecome⟩ := h.exists_become
        exact absurd (plain_of_sequenceBecomes hnone p hp) hbecome
      · exact absurd hterminal h.not_terminal
    · cases heq

/-- a body is accepted exactly when it has no `become`, or every path ends in its only one; the
route sets of an accepted body are those of its `become` statements in source order -/
theorem analyze_paths (body : List AuthoredEntryStatement) :
    ((∃ analysis, analyzeAuthoredEntryRoutes body = .ok analysis) ↔
      sequenceBecomes body = [] ∨ ∀ p ∈ sequencePaths body, p.Terminal) ∧
    ∀ analysis, analyzeAuthoredEntryRoutes body = .ok analysis →
      analysis.terminalRouteSets = sequenceBecomes body ∧
        analysis.routes = (sequenceBecomes body).flatten := by
  obtain ⟨hiff, hsets⟩ := analyzeAuthoredSequence_iff body
  unfold analyzeAuthoredEntryRoutes
  refine ⟨?_, fun analysis h => ?_⟩
  · rw [← hiff]
    constructor
    · rintro ⟨analysis, h⟩
      obtain ⟨result, hresult, _⟩ := bind_eq_ok.mp h
      exact ⟨result, hresult⟩
    · rintro ⟨result, hresult⟩
      exact ⟨_, bind_eq_ok.mpr ⟨result, hresult, rfl⟩⟩
  · obtain ⟨result, hresult, h⟩ := bind_eq_ok.mp h
    have hlist := hsets result hresult
    cases pure_eq_ok.mp h
    exact ⟨hlist, by rw [← hlist]⟩

/-- a `become` on each branch, and one that an omitted `else` leaves without counterpart -/
example :
    (analyzeAuthoredEntryRoutes [.sil 0, .ifElse ⟨1⟩ (.block [.become []]) (some (.become []))]).isOk
      = true ∧
    (analyzeAuthoredEntryRoutes [.ifElse ⟨1⟩ (.become []) none]).isOk = false := by decide

end Argent.Model
