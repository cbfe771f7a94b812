import Mathlib.Data.List.Basic
import Mathlib.Tactic.Common

/-!
# Straight-line programs

Checks and definitions one after the other, over any expressions that have values.  A check that
fails aborts the run, and so does a second definition of a visible name.

* `Language`, `Statement`           expressions with values, and the programs over them;
* `run_require`, `run_define`       what one statement does;
* `runAll_append`                   one program after the other;
* `runAll_keeps`, `runAll_unseen`   **a run keeps what is visible, and shows nothing new that it does
                                    not define**.
-/

set_option linter.unusedSectionVars false

namespace Straightline

/-- the visible names, last definition first -/
abbrev Env (ν : Type*) := List (String × ν)

/-- the values of expressions, and the values that a check accepts -/
structure Language (ε ν : Type*) where
  eval : Env ν → ε → Option ν
  holds : ν → Bool

/-- a check, or a definition of a name with its type -/
inductive Statement (τ ε : Type*) where
  | require (condition : ε)
  | define (ty : τ) (name : String) (value : ε)

variable {τ ε ν : Type*}

/-! ## runs -/

section
variable (L : Language ε ν)

/-- a check that fails aborts, and so does a second definition of a visible name -/
def run (env : Env ν) : Statement τ ε → Option (Env ν)
  | .require condition => do
    let value ← L.eval env condition
    if L.holds value then some env else none
  | .define _ name value =>
    if (env.lookup name).isSome then none
    else (L.eval env value).map fun value => (name, value) :: env

def runAll (env : Env ν) (statements : List (Statement τ ε)) : Option (Env ν) :=
  statements.foldlM (run L) env

/-- the condition has a value, and it is accepted -/
def Passes (env : Env ν) (condition : ε) : Prop :=
  ∃ value, L.eval env condition = some value ∧ L.holds value = true

end

variable {L : Language ε ν} {env out : Env ν}

theorem run_require {condition : ε} : run L env (.require condition : Statement τ ε) = some out ↔
    Passes L env condition ∧ env = out := by
  unfold run
  refine Option.bind_eq_some_iff.trans ⟨?_, ?_⟩
  · intro ⟨value, hvalue, h⟩
    by_cases hholds : L.holds value = true
    · rw [if_pos hholds, Option.some_inj] at h
      exact ⟨⟨value, hvalue, hholds⟩, h⟩
    · rw [if_neg hholds] at h
      cases h
  · intro ⟨⟨value, hvalue, hholds⟩, h⟩
    exact ⟨value, hvalue, by rw [if_pos hholds, h]⟩

theorem run_define {ty : τ} {name : String} {expr : ε} :
    run L env (.define ty name expr) = some out ↔
      env.lookup name = none ∧ ∃ value, L.eval env expr = some value ∧ (name, value) :: env = out := by
  unfold run
  dsimp only
  cases env.lookup name with
  | none =>
    rw [if_neg (fun h => nomatch h), Option.map_eq_some_iff]
    exact (and_iff_right rfl).symm
  | some value =>
    rw [if_pos Option.isSome_some]
    exact ⟨fun h => (nomatch h), fun ⟨h, _⟩ => (nomatch h)⟩

theorem lookup_cons_of_ne {name defined : String} {value : ν} (h : name ≠ defined) :
    ((defined, value) :: env).lookup name = env.lookup name := by
  rw [List.lookup_cons, beq_eq_false_iff_ne.mpr h]

/-! ## the names of a program -/

/-- the names that are defined, in order -/
def definedNames (statements : List (Statement τ ε)) : List String :=
  statements.filterMap fun statement => match statement with
    | .require _ => none
    | .define _ name _ => some name

theorem definedNames_append {first second : List (Statement τ ε)} :
    definedNames (first ++ second) = definedNames first ++ definedNames second :=
  List.filterMap_append

/-! ## one statement after the other -/

theorem runAll_nil : runAll L env ([] : List (Statement τ ε)) = some out ↔ env = out :=
  Option.some_inj

theorem runAll_cons {statement : Statement τ ε} {statements : List (Statement τ ε)} :
    runAll L env (statement :: statements) = some out ↔
      ∃ next, run L env statement = some next ∧ runAll L next statements = some out := by
  unfold runAll
  rw [List.foldlM_cons]
  exact Option.bind_eq_some_iff

theorem runAll_append {first second : List (Statement τ ε)} :
    runAll L env (first ++ second) = some out ↔
      ∃ next, runAll L env first = some next ∧ runAll L next second = some out := by
  unfold runAll
  rw [List.foldlM_append]
  exact Option.bind_eq_some_iff

theorem runAll_require {condition : ε} :
    runAll L env ([.require condition] : List (Statement τ ε)) = some out ↔
      Passes L env condition ∧ env = out := by
  rw [runAll_cons]
  constructor
  · rintro ⟨next, hnext, hnil⟩
    rw [← runAll_nil.mp hnil]
    exact run_require.mp hnext
  · intro h
    exact ⟨out, run_require.mpr h, runAll_nil.mpr rfl⟩

theorem run_keeps {statement : Statement τ ε} (h : run L env statement = some out) {name : String}
    {value : ν} (hname : env.lookup name = some value) : out.lookup name = some value := by
  cases statement with
  | require condition => rwa [← (run_require.mp h).2]
  | define ty defined expr =>
    obtain ⟨hfresh, given, -, rfl⟩ := run_define.mp h
    have hne : name ≠ defined := by
      intro heq
      rw [heq, hfresh] at hname
      cases hname
    rwa [lookup_cons_of_ne hne]

theorem runAll_keeps {statements : List (Statement τ ε)} (h : runAll L env statements = some out)
    {name : String} {value : ν} (hname : env.lookup name = some value) :
    out.lookup name = some value := by
  induction statements generalizing env with
  | nil =>
    obtain rfl := runAll_nil.mp h
    exact hname
  | cons statement statements ih =>
    obtain ⟨next, hnext, h⟩ := runAll_cons.mp h
    exact ih h (run_keeps hnext hname)

theorem runAll_unseen {statements : List (Statement τ ε)} (h : runAll L env statements = some out)
    {name : String} (hname : env.lookup name = none) (hnot : name ∉ definedNames statements) :
    out.lookup name = none := by
  induction statements generalizing env with
  | nil =>
    obtain rfl := runAll_nil.mp h
    exact hname
  | cons statement statements ih =>
    obtain ⟨next, hnext, h⟩ := runAll_cons.mp h
    cases statement with
    | require condition =>
      obtain ⟨-, rfl⟩ := run_require.mp hnext
      exact ih h hname hnot
    | define ty defined expr =>
      obtain ⟨-, given, -, rfl⟩ := run_define.mp hnext
      obtain ⟨hne, hnot⟩ := List.ne_and_not_mem_of_not_mem_cons hnot
      refine ih h ?_ hnot
      rwa [lookup_cons_of_ne hne]

/-! ## new names -/

/-- the program can define its names: they are different, and not visible yet -/
structure Fresh (env : Env ν) (statements : List (Statement τ ε)) : Prop where
  nodup : (definedNames statements).Nodup
  unseen : ∀ name ∈ definedNames statements, env.lookup name = none

theorem Fresh.left {first second : List (Statement τ ε)} (h : Fresh env (first ++ second)) :
    Fresh env first := by
  obtain ⟨hnodup, hunseen⟩ := h
  rw [definedNames_append] at hnodup hunseen
  exact ⟨(List.nodup_append.mp hnodup).1, fun name hname => hunseen name (List.mem_append_left _ hname)⟩

theorem Fresh.right {first second : List (Statement τ ε)} (h : Fresh env (first ++ second))
    (hrun : runAll L env first = some out) : Fresh out second := by
  obtain ⟨hnodup, hunseen⟩ := h
  rw [definedNames_append] at hnodup hunseen
  refine ⟨(List.nodup_append.mp hnodup).2.1, fun name hname => ?_⟩
  refine runAll_unseen hrun (hunseen name (List.mem_append_right _ hname)) fun hfirst => ?_
  exact (List.nodup_append.mp hnodup).2.2 name hfirst name hname rfl

/-! ## sums -/

section
variable {β : Type*} {eval : ε → Option ν} {join : ε → ε → ε} {op : ν → ν → Option ν} {wrap : List β → ν}
  {parts : List ε} {start : ε} {x : List β} {v : ν}

theorem exists_eval_of_sum
    (hjoin : ∀ left right v, eval (join left right) = some v ↔
      ∃ a b, eval left = some a ∧ eval right = some b ∧ op a b = some v)
    (h : eval (parts.foldl join start) = some v) : ∃ w, eval start = some w := by
  induction parts generalizing start with
  | nil => exact ⟨v, h⟩
  | cons part parts ih =>
    obtain ⟨w, hw⟩ := ih h
    obtain ⟨a, _, ha, _⟩ := (hjoin start part w).mp hw
    exact ⟨a, ha⟩

/-- the sum of lists is their concatenation, and every part of it is a list -/
theorem eval_sum
    (hjoin : ∀ left right v, eval (join left right) = some v ↔
      ∃ a b, eval left = some a ∧ eval right = some b ∧ op a b = some v)
    (hop : ∀ x b v, op (wrap x) b = some v ↔ ∃ y, b = wrap y ∧ wrap (x ++ y) = v)
    (hstart : eval start = some (wrap x)) :
    eval (parts.foldl join start) = some v ↔
      ∃ values, List.Forall₂ (fun part value => eval part = some (wrap value)) parts values ∧
        wrap (x ++ values.flatten) = v := by
  have hnext : ∀ {start x}, eval start = some (wrap x) → ∀ part w,
      eval (join start part) = some w ↔
        ∃ y, eval part = some (wrap y) ∧ wrap (x ++ y) = w := by
    intro start x hstart part w
    rw [hjoin]
    constructor
    · intro ⟨a, b, ha, hb, hsum⟩
      obtain rfl := Option.some_inj.mp (hstart.symm.trans ha)
      obtain ⟨y, rfl, h⟩ := (hop x b w).mp hsum
      exact ⟨y, hb, h⟩
    · intro ⟨y, hy, h⟩
      exact ⟨wrap x, wrap y, hstart, hy, (hop x _ w).mpr ⟨y, rfl, h⟩⟩
  induction parts generalizing start x with
  | nil =>
    rw [List.foldl_nil, hstart, Option.some_inj]
    constructor
    · intro h
      exact ⟨[], .nil, by rw [List.flatten_nil, List.append_nil, h]⟩
    · intro ⟨values, hvalues, h⟩
      cases hvalues
      rwa [List.flatten_nil, List.append_nil] at h
  | cons part parts ih =>
    rw [List.foldl_cons]
    constructor
    · intro h
      obtain ⟨w, hw⟩ := exists_eval_of_sum hjoin h
      obtain ⟨y, hy, rfl⟩ := (hnext hstart part w).mp hw
      obtain ⟨values, hvalues, h⟩ := (ih hw).mp h
      exact ⟨y :: values, .cons hy hvalues, by rwa [List.flatten_cons, ← List.append_assoc]⟩
    · intro ⟨values, hvalues, h⟩
      cases hvalues with
      | cons hpart hvalues =>
        refine (ih ((hnext hstart part _).mpr ⟨_, hpart, rfl⟩)).mpr ⟨_, hvalues, ?_⟩
        rwa [List.append_assoc, ← List.flatten_cons]

end

end Straightline
