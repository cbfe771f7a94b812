import Argent.Sil.Transaction

/-!
# Covenant scripts

The fragment of the target language that covenant checks are written in, and its execution against a
transaction.  A statement that fails aborts the script.  A second definition of a visible name is
rejected by the language (`variable is already defined`), so a script that has one has no run.

* `SilExpr`, `SilExpr.eval`        expressions and their values;
* `SilStatement`, `execAll`        statements and their runs;
* `Frame.Extends`                  what a run keeps: every definition and every output check.
-/

set_option linter.unusedSectionVars false

namespace Argent.Sil

/-! ## syntax -/

inductive BinaryOp where
  | add
  | sub
  | eq
  | ne
  | ge
  | le
deriving DecidableEq, Repr

inductive Builtin where
  | opInputCovenantId
  | opCovInputCount
  | opCovInputIdx
  | opAuthOutputCount
  | opAuthOutputIdx
  | opCovOutputCount
  /-- `source.length` -/
  | length
  | blake3
  /-- the cast to `byte[]`, or to `byte[size]` -/
  | byteArray (size : Option Nat)
deriving DecidableEq, Repr

inductive SilExpr where
  | int (value : Int)
  | bytes (value : Bytes)
  | identifier (name : String)
  /-- `this.activeInputIndex` -/
  | activeInputIndex
  | binary (op : BinaryOp) (left right : SilExpr)
  | call (builtin : Builtin) (args : List SilExpr)
  /-- `source[start..stop]` -/
  | slice (source start stop : SilExpr)
deriving Repr

/-- how a read authenticates the contract of an input -/
inductive InputTemplateProof where
  /-- `readInputState`: membership in the covenant is enough -/
  | covenantDomain
  /-- `readInputStateWithTemplate`: the template hash is checked -/
  | template (prefixLen suffixLen hash : SilExpr)
deriving Repr

inductive SilStatement where
  | define (name : String) (value : SilExpr)
  | require (condition : SilExpr)
  /-- `name = readInputState(index)`, or with a template -/
  | readInput (name : String) (index : SilExpr) (proof : InputTemplateProof)
  /-- `for (ident, start, stop, maxIterations) { body }` -/
  | loop (ident : String) (start stop maxIterations : SilExpr) (body : List SilStatement)
deriving Repr

mutual

/-- the names that an expression reads -/
def SilExpr.identifiers : SilExpr → List String
  | .int _ | .bytes _ | .activeInputIndex => []
  | .identifier name => [name]
  | .binary _ left right => left.identifiers ++ right.identifiers
  | .call _ args => identifiersAll args
  | .slice source start stop => source.identifiers ++ start.identifiers ++ stop.identifiers

def identifiersAll : List SilExpr → List String
  | [] => []
  | expr :: exprs => expr.identifiers ++ identifiersAll exprs

end

/-! ## values -/

inductive Value where
  | int (value : Int)
  | bool (value : Bool)
  | bytes (value : Bytes)
  /-- the state of a contract -/
  | state (payload : Bytes)
deriving DecidableEq, Repr

/-- the visible names, last definition first -/
abbrev Env := List (String × Value)

/-- the hash functions of the script engine -/
structure Hashes where
  blake3 : Bytes → Bytes

/-- the transaction and the input whose script runs -/
structure ScriptContext where
  tx : Transaction
  active : Nat
  hashes : Hashes

variable {ctx : ScriptContext} {env : Env}

def BinaryOp.run : BinaryOp → Value → Value → Option Value
  | add, .int left, .int right => some (.int (left + right))
  | add, .bytes left, .bytes right => some (.bytes (left ++ right))
  | sub, .int left, .int right => some (.int (left - right))
  | eq, left, right => some (.bool (decide (left = right)))
  | ne, left, right => some (.bool (decide (left ≠ right)))
  | ge, .int left, .int right => some (.bool (decide (left ≥ right)))
  | le, .int left, .int right => some (.bool (decide (left ≤ right)))
  | _, _, _ => none

/-- an index into a list, when it is not negative -/
def nth (l : List α) (index : Int) : Option α :=
  if index < 0 then none else l[index.toNat]?

theorem nth_eq_some {l : List α} {index : Int} {a : α} :
    nth l index = some a ↔ ∃ k : Nat, index = k ∧ l[k]? = some a := by
  unfold nth
  constructor
  · intro h
    split at h
    · cases h
    · exact ⟨index.toNat, by omega, h⟩
  · intro ⟨k, hk, h⟩
    rw [hk, if_neg (by omega), Int.toNat_natCast, h]

def Builtin.run (ctx : ScriptContext) : Builtin → List Value → Option Value
  | opInputCovenantId, [.int input] => do
    let input ← nth ctx.tx.inputs input
    let covenant ← input.covenantId
    some (.bytes covenant)
  | opCovInputCount, [.bytes covenant] => some (.int (ctx.tx.covInputs covenant).length)
  | opCovInputIdx, [.bytes covenant, .int position] => do
    let input ← nth (ctx.tx.covInputs covenant) position
    some (.int input)
  | opAuthOutputCount, [.int input] => some (.int (ctx.tx.authOutputs input.toNat).length)
  | opAuthOutputIdx, [.int input, .int position] => do
    let output ← nth (ctx.tx.authOutputs input.toNat) position
    some (.int output)
  | opCovOutputCount, [.bytes covenant] => some (.int (ctx.tx.covOutputs covenant).length)
  | length, [.bytes value] => some (.int value.length)
  | blake3, [.bytes value] => some (.bytes (ctx.hashes.blake3 value))
  | byteArray size, [.bytes value] =>
    if size.all (fun size => decide (size = value.length)) then some (.bytes value) else none
  | _, _ => none

/-- the bytes from `start` to `stop` -/
def Value.slice : Value → Value → Value → Option Value
  | .bytes value, .int start, .int stop =>
    if 0 ≤ start ∧ start ≤ stop ∧ stop ≤ value.length then
      some (.bytes ((value.drop start.toNat).take (stop - start).toNat))
    else none
  | _, _, _ => none

mutual

def SilExpr.eval (ctx : ScriptContext) (env : Env) : SilExpr → Option Value
  | .int value => some (.int value)
  | .bytes value => some (.bytes value)
  | .identifier name => env.lookup name
  | .activeInputIndex => some (.int ctx.active)
  | .binary op left right => do
    let left ← left.eval ctx env
    let right ← right.eval ctx env
    op.run left right
  | .call builtin args => do
    let args ← evalAll ctx env args
    builtin.run ctx args
  | .slice source start stop => do
    let source ← source.eval ctx env
    let start ← start.eval ctx env
    let stop ← stop.eval ctx env
    source.slice start stop

def evalAll (ctx : ScriptContext) (env : Env) : List SilExpr → Option (List Value)
  | [] => some []
  | expr :: exprs => do
    let value ← expr.eval ctx env
    let values ← evalAll ctx env exprs
    some (value :: values)

end

/-! ## values of compound expressions -/

section
variable {v : Value} {first second : SilExpr}

theorem eval_identifier {name : String} :
    (SilExpr.identifier name).eval ctx env = env.lookup name := by
  rw [SilExpr.eval]

theorem eval_binary {op : BinaryOp} : (SilExpr.binary op first second).eval ctx env = some v ↔
    ∃ v₁ v₂, first.eval ctx env = some v₁ ∧ second.eval ctx env = some v₂ ∧
      op.run v₁ v₂ = some v := by
  rw [SilExpr.eval]
  refine Option.bind_eq_some_iff.trans (exists_congr fun v₁ => ?_)
  refine (and_congr_right fun _ => Option.bind_eq_some_iff).trans ?_
  exact exists_and_left.symm

theorem eval_call₁ {f : Builtin} : (SilExpr.call f [first]).eval ctx env = some v ↔
    ∃ v₁, first.eval ctx env = some v₁ ∧ f.run ctx [v₁] = some v := by
  rw [SilExpr.eval, evalAll, evalAll]
  cases h : first.eval ctx env with
  | none => exact ⟨fun h => (nomatch h), fun ⟨_, h, _⟩ => (nomatch h)⟩
  | some v₁ => exact ⟨fun h => ⟨v₁, rfl, h⟩, fun ⟨_, h, h'⟩ => Option.some_inj.mp h ▸ h'⟩

theorem eval_call₂ {f : Builtin} : (SilExpr.call f [first, second]).eval ctx env = some v ↔
    ∃ v₁ v₂, first.eval ctx env = some v₁ ∧ second.eval ctx env = some v₂ ∧
      f.run ctx [v₁, v₂] = some v := by
  rw [SilExpr.eval, evalAll, evalAll, evalAll]
  cases h : first.eval ctx env with
  | none => exact ⟨fun h => (nomatch h), fun ⟨_, _, h, _⟩ => (nomatch h)⟩
  | some v₁ =>
    cases h' : second.eval ctx env with
    | none => exact ⟨fun h => (nomatch h), fun ⟨_, _, _, h, _⟩ => (nomatch h)⟩
    | some v₂ =>
      refine ⟨fun h => ⟨v₁, v₂, rfl, rfl, h⟩, fun ⟨_, _, h, h', h''⟩ => ?_⟩
      rwa [← Option.some_inj.mp h, ← Option.some_inj.mp h'] at h''

theorem eval_slice {source start stop : SilExpr} :
    (SilExpr.slice source start stop).eval ctx env = some v ↔
      ∃ v₁ v₂ v₃, source.eval ctx env = some v₁ ∧ start.eval ctx env = some v₂ ∧
        stop.eval ctx env = some v₃ ∧ v₁.slice v₂ v₃ = some v := by
  rw [SilExpr.eval]
  refine Option.bind_eq_some_iff.trans (exists_congr fun v₁ => ?_)
  refine (and_congr_right fun _ => Option.bind_eq_some_iff).trans ?_
  refine exists_and_left.symm.trans (exists_congr fun v₂ => ?_)
  refine (and_congr_right fun _ => and_congr_right fun _ => Option.bind_eq_some_iff).trans ?_
  simp only [exists_and_left]

theorem run_eq {v₁ v₂ : Value} : BinaryOp.eq.run v₁ v₂ = some (.bool true) ↔ v₁ = v₂ := by
  unfold BinaryOp.run
  rw [Option.some_inj, Value.bool.injEq, decide_eq_true_eq]

theorem run_ne {v₁ v₂ : Value} : BinaryOp.ne.run v₁ v₂ = some (.bool true) ↔ v₁ ≠ v₂ := by
  unfold BinaryOp.run
  rw [Option.some_inj, Value.bool.injEq, decide_eq_true_eq]

theorem run_ge {m n : Int} : BinaryOp.ge.run (.int m) (.int n) = some (.bool true) ↔ n ≤ m := by
  unfold BinaryOp.run
  rw [Option.some_inj, Value.bool.injEq, decide_eq_true_eq, ge_iff_le]

theorem run_le {m n : Int} : BinaryOp.le.run (.int m) (.int n) = some (.bool true) ↔ m ≤ n := by
  unfold BinaryOp.run
  rw [Option.some_inj, Value.bool.injEq, decide_eq_true_eq]

/-- a cast to a fixed size keeps bytes of that size -/
theorem run_byteArray {size : Nat} {value : Bytes} (h : value.length = size) :
    (Builtin.byteArray (some size)).run ctx [.bytes value] = some (.bytes value) := by
  rw [← h]
  exact if_pos (decide_eq_true rfl)

end

/-! ## runs -/

/-- whether the input's contract passes the check of the proof -/
def InputTemplateProof.passes (ctx : ScriptContext) (env : Env) (input : TransactionInput) :
    InputTemplateProof → Option Unit
  | .covenantDomain => some ()
  | .template prefixLen suffixLen hash => do
    let _ ← prefixLen.eval ctx env
    let _ ← suffixLen.eval ctx env
    let hash ← hash.eval ctx env
    if hash = .bytes input.template then some () else none

/-- a check of the contract and the state that an output pays to -/
structure OutputCheck where
  output : Nat
  template : Bytes
  state : Bytes
deriving DecidableEq, Repr

/-- the visible names of a run and the output checks it passed -/
structure Frame where
  env : Env
  checked : List OutputCheck
deriving DecidableEq, Repr

/-- a new name; a visible one cannot be defined again -/
def Frame.define (frame : Frame) (name : String) (value : Value) : Option Frame :=
  match frame.env.lookup name with
  | some _ => none
  | none => some { frame with env := (name, value) :: frame.env }

def toInt? : Value → Option Int
  | .int value => some value
  | _ => none

mutual

def SilStatement.exec (ctx : ScriptContext) : SilStatement → Frame → Option Frame
  | .define name value, frame => do
    let value ← value.eval ctx frame.env
    frame.define name value
  | .require condition, frame => do
    let value ← condition.eval ctx frame.env
    if value = .bool true then some frame else none
  | .readInput name index proof, frame => do
    let index ← index.eval ctx frame.env
    let index ← toInt? index
    let input ← nth ctx.tx.inputs index
    proof.passes ctx frame.env input
    frame.define name (.state input.state)
  | .loop ident start stop maxIterations body, frame => do
    let start ← start.eval ctx frame.env
    let start ← toInt? start
    let stop ← stop.eval ctx frame.env
    let stop ← toInt? stop
    let maxIterations ← maxIterations.eval ctx frame.env
    let maxIterations ← toInt? maxIterations
    -- the definitions of one iteration are not visible after it
    (List.range (min (stop - start) maxIterations).toNat).foldlM (fun frame (iteration : Nat) => do
      let inner ← frame.define ident (.int (start + iteration))
      let after ← execAll ctx body inner
      some { after with env := frame.env }) frame

def execAll (ctx : ScriptContext) : List SilStatement → Frame → Option Frame
  | [], frame => some frame
  | statement :: statements, frame => do
    let frame ← statement.exec ctx frame
    execAll ctx statements frame

end

/-! ## one statement -/

variable {frame out : Frame} {name : String} {value condition index : SilExpr}
  {statement : SilStatement} {statements statements' : List SilStatement}

theorem Frame.define_eq_some {value : Value} : frame.define name value = some out ↔
    frame.env.lookup name = none ∧ out = { frame with env := (name, value) :: frame.env } := by
  unfold Frame.define
  cases h : frame.env.lookup name with
  | some _ => exact ⟨fun h => (nomatch h), fun h => (nomatch h.1)⟩
  | none =>
    rw [Option.some_inj]
    exact ⟨fun h => ⟨rfl, h.symm⟩, fun h => h.2.symm⟩

theorem toInt?_eq_some {v : Value} {n : Int} : toInt? v = some n ↔ v = .int n := by
  cases v <;> simp [toInt?]

theorem exec_define : (SilStatement.define name value).exec ctx frame = some out ↔
    ∃ v, value.eval ctx frame.env = some v ∧ frame.env.lookup name = none ∧
      out = { frame with env := (name, v) :: frame.env } := by
  rw [SilStatement.exec]
  refine Option.bind_eq_some_iff.trans ?_
  exact exists_congr fun v => and_congr_right fun _ => Frame.define_eq_some

theorem exec_require : (SilStatement.require condition).exec ctx frame = some out ↔
    condition.eval ctx frame.env = some (.bool true) ∧ out = frame := by
  rw [SilStatement.exec]
  refine Option.bind_eq_some_iff.trans ⟨?_, ?_⟩
  · intro ⟨v, hv, hif⟩
    split at hif
    · rename_i htrue
      exact ⟨htrue ▸ hv, (Option.some_inj.mp hif).symm⟩
    · cases hif
  · intro ⟨hv, hout⟩
    exact ⟨_, hv, by rw [if_pos rfl, hout]⟩

theorem exec_readInput {proof : InputTemplateProof} :
    (SilStatement.readInput name index proof).exec ctx frame = some out ↔
      ∃ i input, index.eval ctx frame.env = some (.int i) ∧ nth ctx.tx.inputs i = some input ∧
        proof.passes ctx frame.env input = some () ∧ frame.env.lookup name = none ∧
        out = { frame with env := (name, .state input.state) :: frame.env } := by
  rw [SilStatement.exec]
  constructor
  · intro h
    obtain ⟨v, hv, h⟩ := Option.bind_eq_some_iff.mp h
    obtain ⟨i, hi, h⟩ := Option.bind_eq_some_iff.mp h
    obtain ⟨input, hinput, h⟩ := Option.bind_eq_some_iff.mp h
    obtain ⟨_, hproof, h⟩ := Option.bind_eq_some_iff.mp h
    obtain ⟨hnew, hout⟩ := Frame.define_eq_some.mp h
    rw [toInt?_eq_some.mp hi] at hv
    exact ⟨i, input, hv, hinput, hproof, hnew, hout⟩
  · intro ⟨i, input, hv, hinput, hproof, hnew, hout⟩
    refine Option.bind_eq_some_iff.mpr ⟨_, hv, Option.bind_eq_some_iff.mpr ⟨i, rfl, ?_⟩⟩
    refine Option.bind_eq_some_iff.mpr ⟨input, hinput, Option.bind_eq_some_iff.mpr ⟨(), hproof, ?_⟩⟩
    exact Frame.define_eq_some.mpr ⟨hnew, hout⟩

/-! ## sequences and loops -/

theorem execAll_nil : execAll ctx [] frame = some out ↔ out = frame := by
  rw [execAll, Option.some_inj]
  exact eq_comm

theorem execAll_cons : execAll ctx (statement :: statements) frame = some out ↔
    ∃ mid, statement.exec ctx frame = some mid ∧ execAll ctx statements mid = some out := by
  rw [execAll]
  exact Option.bind_eq_some_iff

theorem execAll_append : execAll ctx (statements ++ statements') frame = some out ↔
    ∃ mid, execAll ctx statements frame = some mid ∧ execAll ctx statements' mid = some out := by
  induction statements generalizing frame with
  | nil =>
    rw [List.nil_append]
    refine ⟨fun h => ⟨frame, execAll_nil.mpr rfl, h⟩, fun ⟨mid, hmid, h⟩ => ?_⟩
    rwa [← execAll_nil.mp hmid]
  | cons statement statements ih =>
    rw [List.cons_append, execAll_cons]
    constructor
    · intro ⟨mid, hmid, h⟩
      obtain ⟨mid', hmid', h⟩ := ih.mp h
      exact ⟨mid', execAll_cons.mpr ⟨mid, hmid, hmid'⟩, h⟩
    · intro ⟨mid', hmid', h⟩
      obtain ⟨mid, hmid, hmid'⟩ := execAll_cons.mp hmid'
      exact ⟨mid, hmid, ih.mpr ⟨mid', hmid', h⟩⟩

/-- an invariant of the iterations holds after a successful fold over a range -/
theorem foldlM_range {σ : Type*} {f : σ → Nat → Option σ} (P : Nat → σ → Prop) {n : Nat}
    {init out : σ} (h : (List.range n).foldlM f init = some out) (h0 : P 0 init)
    (hstep : ∀ k s s', k < n → P k s → f s k = some s' → P (k + 1) s') : P n out := by
  induction n generalizing out with
  | zero =>
    cases h
    exact h0
  | succ n ih =>
    rw [List.range_succ, List.foldlM_append] at h
    obtain ⟨mid, hmid, hlast⟩ := Option.bind_eq_some_iff.mp h
    rw [List.foldlM_cons] at hlast
    obtain ⟨out', hout, hnil⟩ := Option.bind_eq_some_iff.mp hlast
    have hP := ih hmid fun k s s' hk => hstep k s s' (by omega)
    rw [← Option.some_inj.mp hnil]
    exact hstep n mid out' (by omega) hP hout

/-- the iterations of a loop, and an invariant of them -/
theorem exec_loop {ident : String} {start stop maxIterations : SilExpr}
    (h : (SilStatement.loop ident start stop maxIterations statements).exec ctx frame = some out) :
    ∃ first last most, start.eval ctx frame.env = some (.int first) ∧
      stop.eval ctx frame.env = some (.int last) ∧
      maxIterations.eval ctx frame.env = some (.int most) ∧
      ∀ P : Nat → Frame → Prop, P 0 frame →
        (∀ (k : Nat) inner after, k < (min (last - first) most).toNat → P k inner →
          inner.env = frame.env → frame.env.lookup ident = none →
          execAll ctx statements
            { inner with env := (ident, .int (first + k)) :: frame.env } = some after →
          P (k + 1) { after with env := frame.env }) →
        P (min (last - first) most).toNat out ∧ out.env = frame.env := by
  rw [SilStatement.exec] at h
  have hint : ∀ {expr : SilExpr} {f : Int → Option Frame},
      (expr.eval ctx frame.env).bind (fun v => (toInt? v).bind f) = some out →
      ∃ n, expr.eval ctx frame.env = some (.int n) ∧ f n = some out := by
    intro expr f hexpr
    obtain ⟨v, hv, hexpr⟩ := Option.bind_eq_some_iff.mp hexpr
    obtain ⟨n, hn, hexpr⟩ := Option.bind_eq_some_iff.mp hexpr
    exact ⟨n, toInt?_eq_some.mp hn ▸ hv, hexpr⟩
  obtain ⟨first, hfirst, h⟩ := hint h
  obtain ⟨last, hlast, h⟩ := hint h
  obtain ⟨most, hmost, h⟩ := hint h
  refine ⟨first, last, most, hfirst, hlast, hmost, fun P h0 hstep => ?_⟩
  refine foldlM_range (fun k inner => P k inner ∧ inner.env = frame.env) h ⟨h0, rfl⟩ ?_
  intro k inner inner' hk ⟨hP, henv⟩ hbody
  obtain ⟨bound, hbound, hbody⟩ := Option.bind_eq_some_iff.mp hbody
  obtain ⟨after, hafter, hout⟩ := Option.bind_eq_some_iff.mp hbody
  obtain ⟨hnew, hbound⟩ := Frame.define_eq_some.mp hbound
  rw [henv] at hnew hbound hout
  rw [hbound] at hafter
  cases hout
  exact ⟨hstep k inner after hk hP henv hnew hafter, rfl⟩

/-! ## what a run keeps -/

/-- every definition of the first environment is visible in the second -/
def Env.Sub (env env' : Env) : Prop :=
  ∀ ⦃name v⦄, env.lookup name = some v → env'.lookup name = some v

theorem Env.Sub.refl : env.Sub env := fun _ _ h => h

theorem Env.Sub.trans {env' env'' : Env} (h : env.Sub env') (h' : env'.Sub env'') :
    env.Sub env'' := fun _ _ hname => h' (h hname)

theorem Env.Sub.define {v : Value} (h : env.lookup name = none) : env.Sub ((name, v) :: env) := by
  intro name' v' hname
  have hne : name' ≠ name := by
    intro heq
    rw [heq, h] at hname
    cases hname
  rw [List.lookup_cons, beq_eq_false_iff_ne.mpr hne]
  exact hname

/-- the later frame has every definition and every output check of the earlier one -/
structure Frame.Extends (frame out : Frame) : Prop where
  names : frame.env.Sub out.env
  checks : frame.checked <+: out.checked

namespace Frame.Extends

theorem refl : frame.Extends frame := ⟨Env.Sub.refl, List.prefix_refl _⟩

theorem trans {mid : Frame} (h : frame.Extends mid) (h' : mid.Extends out) : frame.Extends out :=
  ⟨h.names.trans h'.names, h.checks.trans h'.checks⟩

theorem define {v : Value} (h : frame.env.lookup name = none) :
    frame.Extends { frame with env := (name, v) :: frame.env } :=
  ⟨Env.Sub.define h, List.prefix_refl _⟩

end Frame.Extends

mutual

theorem exec_extends {ctx : ScriptContext} : ∀ {statement : SilStatement} {frame out : Frame},
    statement.exec ctx frame = some out → frame.Extends out
  | .define _ _, _, _, h => by
    obtain ⟨_, _, hnew, hout⟩ := exec_define.mp h
    exact hout ▸ Frame.Extends.define hnew
  | .require _, _, _, h => (exec_require.mp h).2 ▸ Frame.Extends.refl
  | .readInput _ _ _, _, _, h => by
    obtain ⟨_, _, _, _, _, hnew, hout⟩ := exec_readInput.mp h
    exact hout ▸ Frame.Extends.define hnew
  | .loop _ _ _ _ body, frame, out, h => by
    obtain ⟨_, _, _, _, _, _, hrun⟩ := exec_loop h
    obtain ⟨hchecks, henv⟩ := hrun (fun _ inner => frame.checked <+: inner.checked)
      (List.prefix_refl _) fun _ inner after _ hinner _ _ hbody =>
        hinner.trans (execAll_extends hbody).checks
    exact ⟨henv ▸ Env.Sub.refl, hchecks⟩

theorem execAll_extends {ctx : ScriptContext} : ∀ {statements : List SilStatement}
    {frame out : Frame}, execAll ctx statements frame = some out → frame.Extends out
  | [], _, _, h => execAll_nil.mp h ▸ Frame.Extends.refl
  | _ :: _, _, _, h => by
    obtain ⟨_, hmid, hrest⟩ := execAll_cons.mp h
    exact (exec_extends hmid).trans (execAll_extends hrest)

end

theorem execAll_flatten {parts : List (List SilStatement)} {part : List SilStatement}
    (h : execAll ctx parts.flatten frame = some out) (hpart : part ∈ parts) :
    ∃ before after, frame.Extends before ∧ execAll ctx part before = some after ∧
      after.Extends out := by
  obtain ⟨pre, post, rfl⟩ := List.append_of_mem hpart
  rw [List.flatten_append, List.flatten_cons] at h
  obtain ⟨before, hbefore, h⟩ := execAll_append.mp h
  obtain ⟨after, hafter, h⟩ := execAll_append.mp h
  exact ⟨before, after, execAll_extends hbefore, hafter, execAll_extends h⟩

theorem execAll_mem (h : execAll ctx statements frame = some out) (hmem : statement ∈ statements) :
    ∃ before after, frame.Extends before ∧ statement.exec ctx before = some after ∧
      after.Extends out := by
  obtain ⟨pre, post, rfl⟩ := List.append_of_mem hmem
  obtain ⟨before, hbefore, h⟩ := execAll_append.mp h
  obtain ⟨after, hafter, h⟩ := execAll_cons.mp h
  exact ⟨before, after, execAll_extends hbefore, hafter, execAll_extends h⟩

end Argent.Sil
