import Argent.Codegen.SpawnPrelude

/-!
# Spawn clauses authenticate whole genesis groups

* `readItem`                 an output as the preimage of a clause describes it;
* `eval_spawnPreimage`       the preimage of a clause is the one of the group that it describes;
* `authentic_iff`            this group is hashed to the id of its first output only if it is whole;
* `run_spawnClause`          what a clause checks, and what it defines;
* `spawnPrelude_authenticates`      **an entry passes its spawn checks exactly when the outputs of every
                             clause are one whole genesis group of the active input, each group after
                             the one before; the groups have different ids**.
-/

set_option linter.unusedSectionVars false

namespace Argent.Codegen
open Argent.Model Argent.Sil Argent.Genesis Straightline

/-! ## values -/

section
variable {ctx : SpawnContext} {env : Sil.Env} {v : Value} {first second third : SpawnExpr}

theorem eval_spawnBinary {op : SpawnOp} : (SpawnExpr.binary op first second).eval ctx env = some v ↔
    ∃ v₁ v₂, first.eval ctx env = some v₁ ∧ second.eval ctx env = some v₂ ∧
      op.run v₁ v₂ = some v := by
  rw [SpawnExpr.eval]
  refine Option.bind_eq_some_iff.trans (exists_congr fun v₁ => ?_)
  refine (and_congr_right fun _ => Option.bind_eq_some_iff).trans ?_
  exact exists_and_left.symm

theorem eval_spawnIdentifier {name : String} :
    (SpawnExpr.identifier name).eval ctx env = env.lookup name := by
  rw [SpawnExpr.eval]

theorem eval_spawnInt {n : Int} : (SpawnExpr.int n).eval ctx env = some (.int n) := by
  rw [SpawnExpr.eval]

theorem eval_spawnCall {f : SpawnBuiltin} {v₁ : Value} (h : first.eval ctx env = some v₁) :
    (SpawnExpr.call f [first]).eval ctx env = f.run ctx [v₁] := by
  rw [SpawnExpr.eval, evalSpawnArgs, evalSpawnArgs, h]
  rfl

theorem eval_asByte8 {n : Nat} (h : first.eval ctx env = some (.int n)) (hn : n < 2 ^ 63) :
    (asByte8 first).eval ctx env = some (.bytes (littleEndian 8 n)) := by
  rw [asByte8, eval_spawnCall h]
  show (SignMagnitude.num2bin 8 n).map Value.bytes = _
  rw [SignMagnitude.num2bin_nat (show n < 256 ^ 8 / 2 by omega)]
  rfl

theorem lt_of_eval_asByte8 {n : Nat} (h : first.eval ctx env = some (.int n))
    (hvalue : (asByte8 first).eval ctx env = some v) : n < 2 ^ 63 := by
  rw [asByte8, eval_spawnCall h] at hvalue
  obtain ⟨bytes, hbytes, -⟩ := Option.map_eq_some_iff.mp hvalue
  have hfits : n < 256 ^ 8 / 2 := (SignMagnitude.num2bin_eq_some hbytes).1
  omega

theorem eval_slice4 {n : Nat} (h : first.eval ctx env = some (.int n)) (hn : n < 2 ^ 63) :
    (slice4 (asByte8 first)).eval ctx env = some (.bytes (littleEndian 4 n)) := by
  rw [slice4, SpawnExpr.eval, eval_asByte8 h hn, SpawnExpr.eval, SpawnExpr.eval]
  show (if (0 : Int) ≤ 0 ∧ (0 : Int) ≤ 4 ∧ (4 : Int) ≤ (littleEndian 8 n).length then
    some (Value.bytes (((littleEndian 8 n).drop 0).take 4)) else none) = _
  rw [length_littleEndian, if_pos (by decide), List.drop_zero, take_littleEndian (by decide)]

end

/-! ## the preimage -/

/-- the limits of the chain that the casts of a clause rely on -/
structure Limits (tx : Transaction) : Prop where
  few : tx.outputs.length ≤ 2 ^ 32
  amounts : ∀ output ∈ tx.outputs, output.value.toNat < 2 ^ 63

/-- an output as the preimage of a clause describes it: of version 0, and with a script of the
length of a script hash -/
def readItem (tx : Transaction) (witnessed : Int) : Option (UInt32 × Runtime.TransactionOutput) := do
  let output ← nth tx.outputs witnessed
  if P2SH_SCRIPT_LEN ≤ output.script.length then
    some (UInt32.ofNat witnessed.toNat,
      ⟨output.value, ⟨0, output.script.take P2SH_SCRIPT_LEN⟩, none⟩)
  else none

section
variable {ctx : SpawnContext} {env : Sil.Env} {hash : Bytes → Bytes} {hashed : Set Bytes}

/-- the parts of the preimage of an output that is read -/
def itemParts (item : UInt32 × Runtime.TransactionOutput) : List Bytes :=
  [littleEndian 4 item.1.toNat, littleEndian 8 item.2.value.toNat, [0, 0], littleEndian 8 35,
    item.2.scriptPublicKey.script]

theorem readItem_eq_some {tx : Transaction} {witnessed : Int}
    {item : UInt32 × Runtime.TransactionOutput} : readItem tx witnessed = some item ↔
      ∃ (k : Nat) (output : TransactionOutput), witnessed = k ∧ tx.outputs[k]? = some output ∧
        P2SH_SCRIPT_LEN ≤ output.script.length ∧ item = (UInt32.ofNat k,
          ⟨output.value, ⟨0, output.script.take P2SH_SCRIPT_LEN⟩, none⟩) := by
  unfold readItem
  constructor
  · intro h
    obtain ⟨output, houtput, h⟩ := Option.bind_eq_some_iff.mp h
    obtain ⟨k, rfl, houtput⟩ := nth_eq_some.mp houtput
    split_ifs at h with hlen
    exact ⟨k, output, rfl, houtput, hlen, (Option.some_inj.mp h).symm⟩
  · intro ⟨k, output, hk, houtput, hlen, hitem⟩
    refine Option.bind_eq_some_iff.mpr ⟨output, nth_eq_some.mpr ⟨k, hk, houtput⟩, ?_⟩
    rw [if_pos hlen, hitem, hk]
    rfl

theorem flatten_itemParts {tx : Transaction} {witnessed : Int}
    {item : UInt32 × Runtime.TransactionOutput} (h : readItem tx witnessed = some item) :
    (itemParts item).flatten = outputPreimage item := by
  obtain ⟨k, output, -, -, hlen, rfl⟩ := readItem_eq_some.mp h
  have hscript : (output.script.take P2SH_SCRIPT_LEN).length = 35 := by
    rw [List.length_take]
    exact Nat.min_eq_left hlen
  unfold itemParts outputPreimage counted
  dsimp only
  rw [hscript, List.flatMap_singleton', List.flatten_cons, List.flatten_cons, List.flatten_cons,
    List.flatten_cons, List.flatten_cons, List.flatten_nil, List.append_nil]
  simp only [List.append_assoc]
  rfl

theorem flatten_parts {α : Type*} {tx : Transaction} {witnessed : α → Int} {outputs : List α}
    {items : List (UInt32 × Runtime.TransactionOutput)}
    (h : List.Forall₂ (fun output item => readItem tx (witnessed output) = some item) outputs items) :
    (items.map itemParts).flatten.flatten = items.flatMap outputPreimage := by
  induction h with
  | nil => rfl
  | cons hitem _ ih =>
    rw [List.map_cons, List.flatten_cons, List.flatten_append, flatten_itemParts hitem, ih,
      List.flatMap_cons]

theorem slice_scriptPublicKey (output : TransactionOutput) :
    (Value.bytes (scriptPublicKeyBytes output)).slice (.int SPK_VERSION_LEN)
        (.int (SPK_VERSION_LEN + P2SH_SCRIPT_LEN)) =
      if P2SH_SCRIPT_LEN ≤ output.script.length then
        some (.bytes (output.script.take P2SH_SCRIPT_LEN)) else none := by
  have hlength : (scriptPublicKeyBytes output).length = output.script.length + 2 := rfl
  show (if (0 : Int) ≤ 2 ∧ (2 : Int) ≤ 37 ∧ (37 : Int) ≤ (scriptPublicKeyBytes output).length then
    some (Value.bytes (((scriptPublicKeyBytes output).drop 2).take 35)) else none) = _
  refine if_congr ?_ rfl rfl
  rw [hlength]
  show _ ↔ 35 ≤ output.script.length
  omega

theorem eval_outputValue {name : String} {witnessed : Int}
    (hname : env.lookup name = some (.int witnessed)) {output : TransactionOutput}
    (houtput : nth ctx.tx.outputs witnessed = some output) :
    (SpawnExpr.outputValue (.identifier name)).eval ctx env = some (.int output.value.toNat) := by
  rw [SpawnExpr.eval, eval_spawnIdentifier, hname]
  show (nth ctx.tx.outputs witnessed).bind _ = _
  rw [houtput]
  rfl

theorem eval_spkSubstr {name : String} {witnessed : Int}
    (hname : env.lookup name = some (.int witnessed)) {output : TransactionOutput}
    (houtput : nth ctx.tx.outputs witnessed = some output) :
    (SpawnExpr.call .opTxOutputSpkSubstr [.identifier name, .int SPK_VERSION_LEN,
        .int (SPK_VERSION_LEN + P2SH_SCRIPT_LEN)]).eval ctx env =
      if P2SH_SCRIPT_LEN ≤ output.script.length then
        some (.bytes (output.script.take P2SH_SCRIPT_LEN)) else none := by
  rw [← slice_scriptPublicKey, SpawnExpr.eval, evalSpawnArgs, evalSpawnArgs, evalSpawnArgs,
    evalSpawnArgs, eval_spawnIdentifier, hname, SpawnExpr.eval, SpawnExpr.eval]
  show (nth ctx.tx.outputs witnessed).bind _ = _
  rw [houtput]
  rfl

theorem eval_outputValue_none {name : String} {witnessed : Int}
    (hname : env.lookup name = some (.int witnessed))
    (houtput : nth ctx.tx.outputs witnessed = none) :
    (asByte8 (.outputValue (.identifier name))).eval ctx env = none := by
  rw [asByte8, SpawnExpr.eval, evalSpawnArgs, SpawnExpr.eval, eval_spawnIdentifier, hname]
  show Option.bind (Option.bind ((nth ctx.tx.outputs witnessed).bind _) _) _ = none
  rw [houtput]
  rfl

/-- an output is hashed as far as it can be read -/
theorem eval_spawnOutputParts (hlimits : Limits ctx.tx) {name : String}
    {witnessed : Int} (hname : env.lookup name = some (.int witnessed)) {values : List Bytes} :
    List.Forall₂ (fun part value => part.eval ctx env = some (.bytes value)) (spawnOutputParts name)
      values ↔ ∃ item, readItem ctx.tx witnessed = some item ∧ values = itemParts item := by
  cases houtput : nth ctx.tx.outputs witnessed with
  | none =>
    constructor
    · rintro (_ | ⟨-, _ | ⟨h, -⟩⟩)
      rw [eval_outputValue_none hname houtput] at h
      cases h
    · rintro ⟨item, hitem, -⟩
      rw [readItem, houtput] at hitem
      cases hitem
  | some output =>
    obtain ⟨k, rfl, hk⟩ := nth_eq_some.mp houtput
    have hmem : output ∈ ctx.tx.outputs := List.mem_of_getElem? hk
    have hlt : k < 2 ^ 32 := Nat.lt_of_lt_of_le (List.getElem?_eq_some_iff.mp hk).1 hlimits.few
    have hwitness : (SpawnExpr.identifier name).eval ctx env = some (.int k) := by
      rw [eval_spawnIdentifier, hname]
    have hindex := eval_slice4 hwitness (by omega)
    have hamount := eval_asByte8 (eval_outputValue hname houtput) (hlimits.amounts output hmem)
    have hversion : (SpawnExpr.bytes P2SH_SPK_VERSION).eval ctx env = some (.bytes [0, 0]) := by
      rw [SpawnExpr.eval]
      rfl
    have hlength : (asByte8 (.int P2SH_SCRIPT_LEN)).eval ctx env =
        some (.bytes (littleEndian 8 35)) := by
      exact eval_asByte8 eval_spawnInt (by decide)
    have hscript := eval_spkSubstr hname houtput
    have htoNat : (UInt32.ofNat k).toNat = k := UInt32.toNat_ofNat_of_lt' hlt
    constructor
    · rintro (_ | ⟨h₁, _ | ⟨h₂, _ | ⟨h₃, _ | ⟨h₄, _ | ⟨h₅, _ | _⟩⟩⟩⟩⟩)
      rw [hscript] at h₅
      split_ifs at h₅ with hlen
      refine ⟨_, readItem_eq_some.mpr ⟨k, output, rfl, hk, hlen, rfl⟩, ?_⟩
      cases hindex.symm.trans h₁
      cases hamount.symm.trans h₂
      cases hversion.symm.trans h₃
      cases hlength.symm.trans h₄
      cases h₅
      rw [itemParts, htoNat]
    · rintro ⟨item, hitem, rfl⟩
      obtain ⟨k', output', hsame, hk', hlen, rfl⟩ := readItem_eq_some.mp hitem
      obtain rfl := Int.natCast_inj.mp hsame
      obtain rfl := Option.some_inj.mp (hk.symm.trans hk')
      rw [if_pos hlen] at hscript
      rw [itemParts, htoNat]
      exact .cons hindex (.cons hamount (.cons hversion (.cons hlength (.cons hscript .nil))))

theorem forall₂_spawnOutputParts (hlimits : Limits ctx.tx) {spawn : String}
    {outputs : List EntryInteraction} {witnessed : EntryInteraction → Int}
    (hwitnessed : ∀ output ∈ outputs, env.lookup (hiddenSpawnOutputIdxName spawn output.handle) =
      some (.int (witnessed output))) {parts : List (List Bytes)} :
    List.Forall₂ (fun output part => List.Forall₂
        (fun part value => part.eval ctx env = some (.bytes value))
        (spawnOutputParts (hiddenSpawnOutputIdxName spawn output.handle)) part) outputs parts ↔
      ∃ items, List.Forall₂ (fun output item => readItem ctx.tx (witnessed output) = some item)
        outputs items ∧ parts = items.map itemParts := by
  induction outputs generalizing parts with
  | nil =>
    constructor
    · rintro (_ | _)
      exact ⟨[], .nil, rfl⟩
    · rintro ⟨_, _ | _, rfl⟩
      exact .nil
  | cons output outputs ih =>
    have hone := @eval_spawnOutputParts ctx env hlimits _ _
      (hwitnessed output List.mem_cons_self)
    replace ih := @ih fun other hother => hwitnessed other (List.mem_cons_of_mem _ hother)
    constructor
    · rintro (_ | ⟨hpart, hparts⟩)
      obtain ⟨item, hitem, rfl⟩ := hone.mp hpart
      obtain ⟨items, hitems, rfl⟩ := ih.mp hparts
      exact ⟨item :: items, .cons hitem hitems, rfl⟩
    · rintro ⟨_, _ | ⟨hitem, hitems⟩, rfl⟩
      exact .cons (hone.mpr ⟨_, hitem, rfl⟩) (ih.mpr ⟨_, hitems, rfl⟩)

/-- the preimage of a clause is the one of the group that its outputs make up under the active
input -/
theorem eval_spawnPreimage (hlimits : Limits ctx.tx) {input : TransactionInput}
    (hactive : ctx.tx.inputs[ctx.active]? = some input) {spawn : SpawnDecl}
    {outputs : List EntryInteraction} {witnessed : EntryInteraction → Int}
    (hwitnessed : ∀ output ∈ outputs, env.lookup (hiddenSpawnOutputIdxName spawn.name output.handle) =
      some (.int (witnessed output))) {v : Value} :
    (spawnPreimage spawn outputs).eval ctx env = some v ↔ outputs.length < 2 ^ 63 ∧ ∃ items,
      List.Forall₂ (fun output item => readItem ctx.tx (witnessed output) = some item) outputs
        items ∧ .bytes (genesisPreimage input.outpoint items) = v := by
  have hinput : nth ctx.tx.inputs ctx.active = some input :=
    nth_eq_some.mpr ⟨ctx.active, rfl, hactive⟩
  have hself : SpawnExpr.activeInputIndex.eval ctx env = some (.int ctx.active) := by
    rw [SpawnExpr.eval]
  have htxid : (SpawnExpr.call .opOutpointTxId [.activeInputIndex]).eval ctx env =
      some (.bytes input.outpoint.transactionId) := by
    rw [eval_spawnCall hself]
    show (nth ctx.tx.inputs ctx.active).bind _ = _
    rw [hinput]
    rfl
  have hoff : (SpawnExpr.call .opOutpointIndex [.activeInputIndex]).eval ctx env =
      some (.int input.outpoint.index.toNat) := by
    rw [eval_spawnCall hself]
    show (nth ctx.tx.inputs ctx.active).bind _ = _
    rw [hinput]
    rfl
  have hindex := eval_slice4 hoff (Nat.lt_trans input.outpoint.index.toNat_lt (by decide))
  have hjoin : ∀ left right v, (SpawnExpr.binary .add left right).eval ctx env = some v ↔
      ∃ a b, left.eval ctx env = some a ∧ right.eval ctx env = some b ∧
        SpawnOp.add.run a b = some v := fun _ _ _ => eval_spawnBinary
  have hop : ∀ (x : Bytes) b v, SpawnOp.add.run (.bytes x) b = some v ↔
      ∃ y, b = .bytes y ∧ Value.bytes (x ++ y) = v := by
    intro x b v
    cases b with
    | bytes y =>
      show some (Value.bytes (x ++ y)) = some v ↔ _
      rw [Option.some_inj]
      constructor
      · intro h
        exact ⟨y, rfl, h⟩
      · rintro ⟨_, heq, h⟩
        cases heq
        exact h
    | int _ | bool _ | state _ =>
      constructor
      · intro h
        cases h
      · rintro ⟨_, h, -⟩
        cases h
  rw [spawnPreimage, List.cons_append, List.cons_append, List.nil_append, eval_sum hjoin hop htxid]
  have hcounted : ∀ items, outputs.length < 2 ^ 63 →
      List.Forall₂ (fun output item => readItem ctx.tx (witnessed output) = some item) outputs items →
      input.outpoint.transactionId ++ (littleEndian 4 input.outpoint.index.toNat ::
        littleEndian 8 outputs.length :: (items.map itemParts).flatten).flatten =
        genesisPreimage input.outpoint items := by
    intro items hlength hitems
    rw [List.flatten_cons, List.flatten_cons, flatten_parts hitems, genesisPreimage, counted,
      ← hitems.length_eq, List.append_assoc]
  constructor
  · rintro ⟨_, _ | ⟨h₁, _ | ⟨h₂, hrest⟩⟩, rfl⟩
    obtain ⟨parts, hparts, rfl⟩ := Fallible.forall₂_flatMap_iff.mp hrest
    obtain ⟨items, hitems, rfl⟩ := (forall₂_spawnOutputParts hlimits hwitnessed).mp hparts
    have hlength := lt_of_eval_asByte8 (eval_spawnInt) h₂
    cases hindex.symm.trans h₁
    cases (eval_asByte8 (eval_spawnInt) hlength).symm.trans h₂
    exact ⟨hlength, items, hitems, congrArg Value.bytes (hcounted items hlength hitems).symm⟩
  · rintro ⟨hlength, items, hitems, rfl⟩
    have hcount := eval_asByte8 (eval_spawnInt : (SpawnExpr.int outputs.length).eval ctx env = _)
      hlength
    have hparts := (forall₂_spawnOutputParts hlimits hwitnessed).mpr ⟨items, hitems, rfl⟩
    exact ⟨_, .cons hindex (.cons hcount (Fallible.forall₂_flatMap_iff.mpr ⟨_, hparts, rfl⟩)),
      congrArg Value.bytes (hcounted items hlength hitems)⟩

/-! ## one clause -/

/-- the hash of the ids of the chain -/
def SpawnContext.covenantHash (ctx : SpawnContext) (preimage : Bytes) : Bytes :=
  ctx.blake2bWithKey preimage (Utf8.utf8 "CovenantID".toList)

/-- the outputs at the witnessed indices are the whole group that creates `id`, in transaction order,
each with a script of version 0 and the length of a pay-to-script-hash one -/
structure Authentic (tx : Transaction) (active : Nat) (witnessed : List Int) (id : Bytes) : Prop where
  complete : witnessed = (createdOutputs tx active id).map fun item => (item.2 : Int)
  scriptHash : ∀ item ∈ createdOutputs tx active id,
    item.1.version = 0 ∧ item.1.script.length = P2SH_SCRIPT_LEN

theorem Authentic.length_le {tx : Transaction} {active : Nat} {witnessed : List Int} {id : Bytes}
    (h : Authentic tx active witnessed id) : witnessed.length ≤ tx.outputs.length := by
  rw [h.complete, List.length_map]
  refine Nat.le_trans (List.length_filter_le _ _) ?_
  rw [List.length_zipIdx]

theorem committable_of_read (hconsensus : Consensus ctx.tx hash hashed) {input : TransactionInput}
    (hactive : ctx.tx.inputs[ctx.active]? = some input) {witnessed : List Int}
    (hlength : witnessed.length < 256 ^ 8) {items : List (UInt32 × Runtime.TransactionOutput)}
    (hitems : List.Forall₂ (fun index item => readItem ctx.tx index = some item) witnessed items) :
    Committable input.outpoint items where
  transactionId := hconsensus.transactionIds input (List.mem_of_getElem? hactive)
  few := hitems.length_eq ▸ hlength
  unbound item hitem := by
    obtain ⟨index, -, hread⟩ := Fallible.mem_of_forall₂_left hitems.flip hitem
    obtain ⟨k, output, -, -, -, rfl⟩ := readItem_eq_some.mp hread
    refine ⟨rfl, Nat.lt_of_le_of_lt (List.length_take_le _ _) ?_⟩
    show 35 < 256 ^ 8
    decide

/-- an output that is read as it is has version 0 and the length of a script hash, and stands at its
index -/
theorem readItem_preimageItem (hconsensus : Consensus ctx.tx hash hashed) {index : Int}
    {item : TransactionOutput × Nat} (hitem : ctx.tx.outputs[item.2]? = some item.1) :
    readItem ctx.tx index = some (preimageItem item) ↔
      index = item.2 ∧ item.1.version = 0 ∧ item.1.script.length = P2SH_SCRIPT_LEN := by
  rw [readItem_eq_some]
  constructor
  · rintro ⟨k, output, rfl, houtput, hlen, heq⟩
    obtain ⟨hindex, hitems⟩ := Prod.mk.inj heq
    have hlt : ∀ {k output}, ctx.tx.outputs[k]? = some output → k < 2 ^ 32 := fun h =>
      Nat.lt_of_lt_of_le (List.getElem?_eq_some_iff.mp h).1 hconsensus.few
    have hsame : item.2 = k := by
      have hnat := congrArg UInt32.toNat hindex
      rwa [UInt32.toNat_ofNat_of_lt' (hlt hitem), UInt32.toNat_ofNat_of_lt' (hlt houtput)] at hnat
    obtain ⟨-, hscript, -⟩ := Runtime.TransactionOutput.mk.inj hitems
    obtain ⟨hversion, hscript⟩ := Runtime.ScriptPublicKey.mk.inj hscript
    refine ⟨congrArg _ hsame.symm, hversion, ?_⟩
    rw [hscript, List.length_take, Nat.min_eq_left hlen]
  · rintro ⟨rfl, hversion, hlength⟩
    refine ⟨item.2, item.1, rfl, hitem, hlength.ge, ?_⟩
    rw [preimageItem, hversion, List.take_of_length_le hlength.le]

/-- what a clause checks: the preimage of the outputs at the witnessed indices hashes to `id`, which the
first of them carries -/
structure Described (ctx : SpawnContext) (outpoint : Outpoint) (witnessed : List Int)
    (items : List (UInt32 × Runtime.TransactionOutput)) (id : Bytes) : Prop where
  length_lt : witnessed.length < 2 ^ 63
  read : List.Forall₂ (fun index item => readItem ctx.tx index = some item) witnessed items
  hash : ctx.covenantHash (genesisPreimage outpoint items) = id
  first : ∀ first ∈ witnessed.head?, ∃ output binding, nth ctx.tx.outputs first = some output ∧
    output.covenant = some binding ∧ binding.covenantId = id

/-- **The preimage of the outputs at the witnessed indices hashes to the id of the first one exactly
when they are the whole group of that id.** -/
theorem authentic_iff (hconsensus : Consensus ctx.tx ctx.covenantHash hashed)
    (hcollision : hashed.InjOn ctx.covenantHash) {input : TransactionInput}
    (hactive : ctx.tx.inputs[ctx.active]? = some input) {witnessed : List Int}
    (hne : witnessed ≠ []) {id : Bytes} {items : List (UInt32 × Runtime.TransactionOutput)}
    (hhashed : List.Forall₂ (fun index item => readItem ctx.tx index = some item) witnessed items →
      genesisPreimage input.outpoint items ∈ hashed) :
    Described ctx input.outpoint witnessed items id ↔
      Authentic ctx.tx ctx.active witnessed id ∧
        items = (createdOutputs ctx.tx ctx.active id).map preimageItem := by
  obtain ⟨first, hhead⟩ := Option.ne_none_iff_exists'.mp (mt List.head?_eq_none_iff.mp hne)
  constructor
  · rintro ⟨hlength, hitems, hid, hfirst⟩
    obtain ⟨output, binding, houtput, hbinding, rfl⟩ := hfirst first hhead
    obtain ⟨k, -, hk⟩ := nth_eq_some.mp houtput
    have hcommittable := committable_of_read hconsensus hactive (by omega) hitems
    obtain ⟨-, -, rfl⟩ := hconsensus.created_of_id hcollision hactive hcommittable (hhashed hitems)
      (List.mem_of_getElem? hk) hbinding hid
    have hread := (List.forall₂_and_left _ _).mpr ⟨fun item hitem => (mem_createdOutputs.mp hitem).1,
      List.forall₂_map_left_iff.mp hitems.flip⟩
    have hpoint : List.Forall₂ (fun item (index : Int) =>
        (item.1.version = 0 ∧ item.1.script.length = P2SH_SCRIPT_LEN) ∧ index = item.2)
        (createdOutputs ctx.tx ctx.active binding.covenantId) witnessed :=
      hread.imp fun item index h => ((readItem_preimageItem hconsensus h.1).mp h.2).symm
    obtain ⟨hscript, hindex⟩ := (List.forall₂_and_left _ _).mp hpoint
    replace hindex := List.forall₂_map_right_iff.mpr hindex.flip
    rw [List.forall₂_eq_eq_eq] at hindex
    exact ⟨⟨hindex, hscript⟩, rfl⟩
  · rintro ⟨h, rfl⟩
    have hle := h.length_le
    have hfew := hconsensus.few
    rw [h.complete, List.head?_map] at hhead
    obtain ⟨item, hitem, rfl⟩ := Option.map_eq_some_iff.mp hhead
    obtain ⟨hfirst, hcovenant, hnew⟩ := mem_createdOutputs.mp (List.mem_of_mem_head? hitem)
    obtain ⟨input', hinput', -, hid⟩ :=
      hconsensus.created item.1 (List.mem_of_getElem? hfirst) _ _ hcovenant hnew
    obtain rfl := Option.some_inj.mp (hactive.symm.trans hinput')
    refine ⟨by omega, ?_, hid, ?_⟩
    · rw [h.complete, List.forall₂_map_left_iff, List.forall₂_map_right_iff, List.forall₂_same]
      exact fun created hcreated => (readItem_preimageItem hconsensus (mem_createdOutputs.mp
        hcreated).1).mpr ⟨rfl, h.scriptHash created hcreated⟩
    · intro index hindex
      rw [h.complete, List.head?_map, hitem] at hindex
      cases hindex
      exact ⟨item.1, _, nth_eq_some.mpr ⟨item.2, rfl, hfirst⟩, hcovenant, rfl⟩

theorem holds_iff {value : Value} : ctx.language.holds value = true ↔ value = .bool true :=
  decide_eq_true_iff

theorem passes_lt {left right : String} {m n : Int} (hleft : env.lookup left = some (.int m))
    (hright : env.lookup right = some (.int n)) :
    Passes ctx.language env (.binary .lt (.identifier left) (.identifier right)) ↔ m < n := by
  have heval : (SpawnExpr.binary .lt (.identifier left) (.identifier right)).eval ctx env =
      some (.bool (decide (m < n))) :=
    eval_spawnBinary.mpr ⟨_, _, eval_spawnIdentifier.trans hleft,
      eval_spawnIdentifier.trans hright, rfl⟩
  constructor
  · rintro ⟨value, hvalue, hholds⟩
    have hsame := Option.some_inj.mp (heval.symm.trans (hvalue.trans (congrArg some
      (holds_iff.mp hholds))))
    exact of_decide_eq_true (Value.bool.inj hsame)
  · intro h
    exact ⟨_, heval, holds_iff.mpr (congrArg Value.bool (decide_eq_true h))⟩

theorem passes_covenantId {firstIdx covenant : String} {first : Int} {id : Bytes}
    (hfirst : env.lookup firstIdx = some (.int first))
    (hcovenant : env.lookup covenant = some (.bytes id)) :
    Passes ctx.language env (.binary .eq (.call .opOutputCovenantId [.identifier firstIdx])
        (.identifier covenant)) ↔
      ∃ output binding, nth ctx.tx.outputs first = some output ∧ output.covenant = some binding ∧
        binding.covenantId = id := by
  have hcall : (SpawnExpr.call .opOutputCovenantId [.identifier firstIdx]).eval ctx env =
      SpawnBuiltin.opOutputCovenantId.run ctx [.int first] :=
    eval_spawnCall (eval_spawnIdentifier.trans hfirst)
  constructor
  · rintro ⟨value, hvalue, hholds⟩
    rw [holds_iff.mp hholds] at hvalue
    obtain ⟨v₁, v₂, h₁, h₂, heq⟩ := eval_spawnBinary.mp hvalue
    obtain ⟨output, houtput, hbinding⟩ := Option.bind_eq_some_iff.mp (hcall.symm.trans h₁)
    obtain ⟨binding, hbinding, hv⟩ := Option.bind_eq_some_iff.mp hbinding
    rw [eval_spawnIdentifier, hcovenant] at h₂
    refine ⟨output, binding, houtput, hbinding, ?_⟩
    cases hv
    cases h₂
    have hsame := of_decide_eq_true (Value.bool.inj (Option.some_inj.mp heq))
    exact Value.bytes.inj hsame
  · rintro ⟨output, binding, houtput, hbinding, rfl⟩
    have hid : (SpawnExpr.call .opOutputCovenantId [.identifier firstIdx]).eval ctx env =
        some (.bytes binding.covenantId) := by
      rw [hcall]
      show (nth ctx.tx.outputs first).bind _ = _
      rw [houtput]
      show output.covenant.bind _ = _
      rw [hbinding]
      rfl
    refine ⟨.bool true, eval_spawnBinary.mpr ⟨_, _, hid, eval_spawnIdentifier.trans hcovenant, ?_⟩, rfl⟩
    exact congrArg some (congrArg Value.bool (decide_eq_true rfl))

theorem run_spawnDefinitions (hlimits : Limits ctx.tx) {input : TransactionInput}
    (hactive : ctx.tx.inputs[ctx.active]? = some input) {spawn : SpawnDecl}
    {outputs : List EntryInteraction} {witnessed : EntryInteraction → Int}
    (hwitnessed : ∀ output ∈ outputs, env.lookup (hiddenSpawnOutputIdxName spawn.name output.handle) =
      some (.int (witnessed output))) {ty ty' : Syntax.Expression.SilTypeRef}
    (hpreimage : env.lookup (hiddenSpawnPreimageName spawn.name) = none)
    (hcovenant : env.lookup spawn.covenant = none)
    (hne : spawn.covenant ≠ hiddenSpawnPreimageName spawn.name) {out : Sil.Env} :
    runAll ctx.language env ([.define ty (hiddenSpawnPreimageName spawn.name)
        (spawnPreimage spawn outputs), .define ty' spawn.covenant (.call .blake2bWithKey
          [.identifier (hiddenSpawnPreimageName spawn.name),
            .call .byteArray [.string "CovenantID"]])]) = some out ↔
      outputs.length < 2 ^ 63 ∧ ∃ items,
        List.Forall₂ (fun output item => readItem ctx.tx (witnessed output) = some item) outputs
          items ∧ (spawn.covenant, .bytes (ctx.covenantHash (genesisPreimage input.outpoint items))) ::
            (hiddenSpawnPreimageName spawn.name, .bytes (genesisPreimage input.outpoint items)) :: env =
              out := by
  have hhash : ∀ preimage, (SpawnExpr.call .blake2bWithKey
      [.identifier (hiddenSpawnPreimageName spawn.name), .call .byteArray [.string "CovenantID"]]).eval
        ctx ((hiddenSpawnPreimageName spawn.name, .bytes preimage) :: env) =
      some (.bytes (ctx.covenantHash preimage)) := by
    intro preimage
    rw [SpawnExpr.eval, evalSpawnArgs, evalSpawnArgs, evalSpawnArgs, eval_spawnIdentifier,
      List.lookup_cons_self, SpawnExpr.eval, evalSpawnArgs, evalSpawnArgs, SpawnExpr.eval]
    rfl
  rw [runAll_cons]
  constructor
  · rintro ⟨next, hnext, hrest⟩
    obtain ⟨-, value, hvalue, rfl⟩ := run_define.mp hnext
    obtain ⟨hlength, items, hitems, rfl⟩ :=
      (eval_spawnPreimage hlimits hactive hwitnessed).mp hvalue
    obtain ⟨last, hlast, hnil⟩ := runAll_cons.mp hrest
    obtain ⟨-, id, hid, rfl⟩ := run_define.mp hlast
    obtain rfl := runAll_nil.mp hnil
    cases (hhash _).symm.trans hid
    exact ⟨hlength, items, hitems, rfl⟩
  · rintro ⟨hlength, items, hitems, rfl⟩
    refine ⟨_, run_define.mpr ⟨hpreimage, _, (eval_spawnPreimage hlimits hactive hwitnessed).mpr
      ⟨hlength, items, hitems, rfl⟩, rfl⟩, runAll_cons.mpr ⟨_, run_define.mpr ⟨?_, _, hhash _, rfl⟩,
        runAll_nil.mpr rfl⟩⟩
    rwa [lookup_cons_of_ne hne]

/-! ## all clauses -/

/-- what the outputs of the clauses are checked against: the indices that the callers of the entry
name, and the preimages that an accepted chain has hashed -/
structure WitnessedClause (ctx : SpawnContext) (hashed : Set Bytes) (outpoint : Outpoint) (env : Sil.Env)
    (witnessed : SpawnDecl → EntryInteraction → Int) (clause : SpawnDecl × CovenantGroup) : Prop where
  lookup : ∀ output ∈ clause.2.outputs.items,
    env.lookup (hiddenSpawnOutputIdxName clause.1.name output.handle) =
      some (.int (witnessed clause.1 output))
  hashed : ∀ items, List.Forall₂ (fun index item => readItem ctx.tx index = some item)
    (clause.2.outputs.items.map (witnessed clause.1)) items → genesisPreimage outpoint items ∈ hashed

variable {input : TransactionInput} {witnessed : SpawnDecl → EntryInteraction → Int}

/-- the names that are visible after a clause -/
def clauseEnv (spawn : SpawnDecl) (preimage id : Bytes) (env : Sil.Env) : Sil.Env :=
  (spawn.covenant, .bytes id) :: (hiddenSpawnPreimageName spawn.name, .bytes preimage) :: env

theorem definedNames_spawnClause {previous : Option String} {spawn : SpawnDecl}
    {outputs : List EntryInteraction} {firstIdx : String} :
    definedNames (spawnClause previous spawn outputs firstIdx) =
      [hiddenSpawnPreimageName spawn.name, spawn.covenant] := by
  cases previous <;> rfl

theorem run_previous {previous : Option (String × Int)} {firstIdx : String} {first : Int}
    (hprevious : ∀ p ∈ previous, env.lookup p.1 = some (.int p.2))
    (hfirst : env.lookup firstIdx = some (.int first)) {out : Sil.Env} :
    runAll ctx.language env ((previous.map Prod.fst).toList.map fun previous =>
      (.require (.binary .lt (.identifier previous) (.identifier firstIdx)) : SpawnStatement)) =
        some out ↔ (∀ p ∈ previous, p.2 < first) ∧ env = out := by
  cases previous with
  | none =>
    refine runAll_nil.trans ⟨fun h => ⟨?_, h⟩, fun h => h.2⟩
    intro p hp
    cases hp
  | some p =>
    refine runAll_require.trans (and_congr_left fun _ => ?_)
    rw [passes_lt (hprevious p rfl) hfirst]
    constructor
    · intro h q hq
      cases hq
      exact h
    · intro h
      exact h p rfl

/-- **A clause passes exactly when its outputs are described by the id of the first one and start after
the ones before.** -/
theorem run_spawnClause (hlimits : Limits ctx.tx) (hactive : ctx.tx.inputs[ctx.active]? = some input)
    {spawn : SpawnDecl} {outputs : List EntryInteraction}
    (hwitnessed : ∀ output ∈ outputs, env.lookup (hiddenSpawnOutputIdxName spawn.name output.handle) =
      some (.int (witnessed spawn output)))
    {first : EntryInteraction} (hfirst : outputs.head? = some first)
    {previous : Option (String × Int)}
    (hprevious : ∀ p ∈ previous, env.lookup p.1 = some (.int p.2))
    (hfresh : Fresh env (spawnClause (previous.map Prod.fst) spawn outputs
      (hiddenSpawnOutputIdxName spawn.name first.handle))) {out : Sil.Env} :
    runAll ctx.language env (spawnClause (previous.map Prod.fst) spawn outputs
        (hiddenSpawnOutputIdxName spawn.name first.handle)) = some out ↔
      (∀ p ∈ previous, p.2 < witnessed spawn first) ∧
        ∃ items id, Described ctx input.outpoint (outputs.map (witnessed spawn)) items id ∧
          clauseEnv spawn (genesisPreimage input.outpoint items) id env = out := by
  obtain ⟨hnodup, hunseen⟩ := hfresh
  rw [definedNames_spawnClause] at hnodup hunseen
  have hne : spawn.covenant ≠ hiddenSpawnPreimageName spawn.name := by
    intro heq
    rw [heq] at hnodup
    exact absurd hnodup (by simp)
  have hindex : env.lookup (hiddenSpawnOutputIdxName spawn.name first.handle) =
      some (.int (witnessed spawn first)) := hwitnessed first (List.mem_of_mem_head? hfirst)
  have hhead : (outputs.map (witnessed spawn)).head? = some (witnessed spawn first) := by
    rw [List.head?_map, hfirst]
    rfl
  have hdefinitions : ∀ {next}, _ ↔ _ := @run_spawnDefinitions ctx env hlimits input hactive
    spawn outputs (witnessed spawn) hwitnessed ⟨.byte, [.dynamic]⟩ ⟨.byte, [.fixed 32]⟩
    (hunseen _ List.mem_cons_self) (hunseen _ (by simp)) hne
  rw [spawnClause, runAll_append]
  constructor
  · rintro ⟨_, hchecked, hlast⟩
    obtain ⟨defined, hrun, hchecked⟩ := runAll_append.mp hchecked
    obtain ⟨hlength, items, hitems, hdefined⟩ := hdefinitions.mp hrun
    obtain ⟨hlt, rfl⟩ := (run_previous (fun p hp => runAll_keeps hrun (hprevious p hp))
      (runAll_keeps hrun hindex)).mp hchecked
    obtain ⟨hpass, rfl⟩ := runAll_require.mp hlast
    have hcovenant : defined.lookup spawn.covenant =
        some (.bytes (ctx.covenantHash (genesisPreimage input.outpoint items))) := by
      rw [← hdefined, List.lookup_cons_self]
    refine ⟨hlt, items, _, ⟨by rwa [List.length_map], List.forall₂_map_left_iff.mpr hitems, rfl, ?_⟩,
      hdefined⟩
    intro index hindex'
    rw [hhead] at hindex'
    cases hindex'
    exact (passes_covenantId (runAll_keeps hrun hindex) hcovenant).mp hpass
  · rintro ⟨hlt, items, id, ⟨hlength, hitems, rfl, hcarries⟩, rfl⟩
    have hrun := hdefinitions.mpr ⟨by rwa [List.length_map] at hlength, _,
      List.forall₂_map_left_iff.mp hitems, rfl⟩
    exact ⟨_, runAll_append.mpr ⟨_, hrun, (run_previous (fun p hp => runAll_keeps hrun (hprevious p hp))
      (runAll_keeps hrun hindex)).mpr ⟨hlt, rfl⟩⟩, runAll_require.mpr
        ⟨(passes_covenantId (runAll_keeps hrun hindex) List.lookup_cons_self).mpr
          (hcarries _ hhead), rfl⟩⟩

/-- the witnessed index of the first output of a clause -/
def firstIndex (witnessed : SpawnDecl → EntryInteraction → Int) (clause : SpawnDecl × CovenantGroup) :
    Option Int :=
  clause.2.outputs.items.head?.map (witnessed clause.1)

/-- the witnessed indices of the outputs of a clause -/
def indices (witnessed : SpawnDecl → EntryInteraction → Int) (clause : SpawnDecl × CovenantGroup) :
    List Int :=
  clause.2.outputs.items.map (witnessed clause.1)

theorem spawnClauses_cons {previous : Option String} {spawn : SpawnDecl} {group : CovenantGroup}
    {clauses : List (SpawnDecl × CovenantGroup)} {statements : List SpawnStatement} :
    spawnClauses previous ((spawn, group) :: clauses) = some statements ↔
      ∃ first rest, group.outputs.items.head? = some first ∧
        spawnClauses (some (hiddenSpawnOutputIdxName spawn.name first.handle)) clauses = some rest ∧
        spawnClause previous spawn group.outputs.items
          (hiddenSpawnOutputIdxName spawn.name first.handle) ++ rest = statements := by
  rw [spawnClauses]
  constructor
  · intro h
    obtain ⟨first, hfirst, h⟩ := Option.bind_eq_some_iff.mp h
    obtain ⟨rest, hrest, h⟩ := Option.bind_eq_some_iff.mp h
    exact ⟨first, rest, hfirst, hrest, Option.some_inj.mp h⟩
  · rintro ⟨first, rest, hfirst, hrest, rfl⟩
    exact Option.bind_eq_some_iff.mpr ⟨first, hfirst, Option.bind_eq_some_iff.mpr ⟨rest, hrest, rfl⟩⟩

theorem exists_firstIndex {previous : Option String} {clauses : List (SpawnDecl × CovenantGroup)}
    {statements : List SpawnStatement} (h : spawnClauses previous clauses = some statements) :
    ∀ clause ∈ clauses, ∃ first, firstIndex witnessed clause = some first := by
  induction clauses generalizing previous statements with
  | nil =>
    intro clause hclause
    cases hclause
  | cons clause clauses ih =>
    obtain ⟨spawn, group⟩ := clause
    obtain ⟨first, rest, hfirst, hrest, -⟩ := spawnClauses_cons.mp h
    intro other hother
    obtain rfl | hother := List.mem_cons.mp hother
    · exact ⟨witnessed spawn first, by rw [firstIndex, hfirst]; rfl⟩
    · exact ih hrest other hother

/-- the clauses pass exactly when each passes, and their first outputs increase -/
theorem run_spawnClauses (hlimits : Limits ctx.tx) (hactive : ctx.tx.inputs[ctx.active]? = some input)
    {clauses : List (SpawnDecl × CovenantGroup)} {statements : List SpawnStatement}
    {previous : Option (String × Int)}
    (h : spawnClauses (previous.map Prod.fst) clauses = some statements)
    (hwitnessed : ∀ clause ∈ clauses, ∀ output ∈ clause.2.outputs.items,
      env.lookup (hiddenSpawnOutputIdxName clause.1.name output.handle) =
        some (.int (witnessed clause.1 output)))
    (hprevious : ∀ p ∈ previous, env.lookup p.1 = some (.int p.2)) (hfresh : Fresh env statements) :
    ((∃ out, runAll ctx.language env statements = some out) ↔
      (∀ clause ∈ clauses, ∃ items id,
          Described ctx input.outpoint (indices witnessed clause) items id) ∧
        ((previous.map Prod.snd).toList ++ clauses.filterMap (firstIndex witnessed)).IsChain (· < ·)) ∧
    ∀ out, runAll ctx.language env statements = some out → ∃ ids, List.Forall₂ (fun clause id =>
      (∃ items, Described ctx input.outpoint (indices witnessed clause) items id) ∧
        out.lookup clause.1.covenant = some (.bytes id)) clauses ids := by
  induction clauses generalizing previous statements env with
  | nil =>
    cases h
    refine ⟨⟨fun _ => ⟨?_, ?_⟩, fun _ => ⟨env, rfl⟩⟩, fun _ _ => ⟨[], .nil⟩⟩
    · intro clause hclause
      cases hclause
    · cases previous
      · exact .nil
      · exact .singleton _
  | cons clause clauses ih =>
    obtain ⟨spawn, group⟩ := clause
    obtain ⟨first, rest, hfirst, hrest, rfl⟩ := spawnClauses_cons.mp h
    have hclause := hwitnessed (spawn, group) List.mem_cons_self
    have hone : ∀ {out}, _ ↔ _ := @run_spawnClause ctx env input witnessed hlimits hactive spawn
      group.outputs.items hclause first hfirst previous hprevious hfresh.left
    have hindex : firstIndex witnessed (spawn, group) = some (witnessed spawn first) := by
      rw [firstIndex, hfirst]
      rfl
    have hlater := fun {next : Sil.Env} (hnext : runAll ctx.language env (spawnClause _ spawn
        group.outputs.items (hiddenSpawnOutputIdxName spawn.name first.handle)) = some next) =>
      @ih next rest (some (hiddenSpawnOutputIdxName spawn.name first.handle, witnessed spawn first)) hrest
        (fun other hother output houtput => runAll_keeps hnext
          (hwitnessed other (List.mem_cons_of_mem _ hother) output houtput))
        (by
          intro p hp
          cases hp
          exact runAll_keeps hnext (hclause first (List.mem_of_mem_head? hfirst)))
        (hfresh.right hnext)
    have hchain : ((previous.map Prod.snd).toList ++
        ((spawn, group) :: clauses).filterMap (firstIndex witnessed)).IsChain (· < ·) ↔
          (∀ p ∈ previous, p.2 < witnessed spawn first) ∧
            (witnessed spawn first :: clauses.filterMap (firstIndex witnessed)).IsChain (· < ·) := by
      rw [List.filterMap_cons_some hindex]
      cases previous with
      | none =>
        refine ⟨fun hchain => ⟨?_, hchain⟩, fun hchain => hchain.2⟩
        intro p hp
        cases hp
      | some p =>
        refine List.isChain_cons_cons.trans (and_congr_left fun _ => ⟨?_, fun hlt => hlt p rfl⟩)
        intro hlt q hq
        cases hq
        exact hlt
    refine ⟨⟨?_, ?_⟩, ?_⟩
    · rintro ⟨out, hout⟩
      obtain ⟨next, hnext, hout⟩ := runAll_append.mp hout
      obtain ⟨hlt, items, id, hid, -⟩ := hone.mp hnext
      obtain ⟨hall, htail⟩ := (hlater hnext).1.mp ⟨out, hout⟩
      exact ⟨List.forall_mem_cons.mpr ⟨⟨items, id, hid⟩, hall⟩, hchain.mpr ⟨hlt, htail⟩⟩
    · rintro ⟨hall, hfirsts⟩
      obtain ⟨hlt, htail⟩ := hchain.mp hfirsts
      obtain ⟨⟨items, id, hid⟩, hall⟩ := List.forall_mem_cons.mp hall
      have hnext := hone.mpr ⟨hlt, items, id, hid, rfl⟩
      obtain ⟨out, hout⟩ := (hlater hnext).1.mpr ⟨hall, htail⟩
      exact ⟨out, runAll_append.mpr ⟨_, hnext, hout⟩⟩
    · intro out hout
      obtain ⟨next, hnext, hout⟩ := runAll_append.mp hout
      obtain ⟨ids, hids⟩ := (hlater hnext).2 out hout
      obtain ⟨-, items, id, hid, rfl⟩ := hone.mp hnext
      exact ⟨id :: ids, .cons ⟨⟨items, hid⟩, runAll_keeps hout List.lookup_cons_self⟩ hids⟩

/-- groups that start at different outputs have different ids -/
theorem ne_of_authentic {clause clause' : SpawnDecl × CovenantGroup} {id id' : Bytes} {first : Int}
    (hfirst : firstIndex witnessed clause = some first)
    (hlt : ∀ m ∈ firstIndex witnessed clause, ∀ n ∈ firstIndex witnessed clause', m < n)
    (hid : Authentic ctx.tx ctx.active (indices witnessed clause) id)
    (hid' : Authentic ctx.tx ctx.active (indices witnessed clause') id') : id ≠ id' := by
  rintro rfl
  have hhead : ∀ clause, firstIndex witnessed clause = (indices witnessed clause).head? := fun clause =>
    List.head?_map.symm
  have hsame : firstIndex witnessed clause' = some first := by
    rw [hhead, hid'.complete, ← hid.complete, ← hhead, hfirst]
  exact absurd (hlt first hfirst first hsame) (lt_irrefl first)

/-- **An entry passes its spawn checks exactly when the witnessed outputs of every clause are one
whole genesis group of the active input, in transaction order and with version-0 scripts of 35 bytes,
and the groups start one after the other.  Then the covenant of every clause is the id of its group,
and no two clauses share a group.**  The hash of the ids does not collide on what the chain has
hashed and on what the outputs of the clauses describe. -/
theorem spawnPrelude_authenticates {entry : EntryModel} {statements : List SpawnStatement}
    (h : spawnPrelude entry = some statements)
    (hconsensus : Consensus ctx.tx ctx.covenantHash hashed)
    (hcollision : hashed.InjOn ctx.covenantHash) (hactive : ctx.tx.inputs[ctx.active]? = some input)
    (hwitnessed : ∀ clause ∈ entry.genesisGroups,
      WitnessedClause ctx hashed input.outpoint env witnessed clause)
    (hfresh : Fresh env statements) :
    ((∃ out, runAll ctx.language env statements = some out) ↔
      (∀ clause ∈ entry.genesisGroups,
        ∃ id, Authentic ctx.tx ctx.active (indices witnessed clause) id) ∧
        (entry.genesisGroups.filterMap (firstIndex witnessed)).IsChain (· < ·)) ∧
    ∀ out, runAll ctx.language env statements = some out → ∃ ids, ids.Nodup ∧
      List.Forall₂ (fun clause id => Authentic ctx.tx ctx.active (indices witnessed clause) id ∧
        out.lookup clause.1.covenant = some (.bytes id)) entry.genesisGroups ids := by
  have hfirsts : ∀ clause ∈ entry.genesisGroups, ∃ first, firstIndex witnessed clause = some first :=
    exists_firstIndex h
  have hiff : ∀ clause ∈ entry.genesisGroups, ∀ {items id}, _ ↔ _ := fun clause hclause items id =>
    @authentic_iff ctx hashed hconsensus hcollision input hactive (indices witnessed clause)
      (by
        obtain ⟨first, hfirst⟩ := hfirsts clause hclause
        intro hnil
        rw [firstIndex, ← List.head?_map] at hfirst
        rw [indices] at hnil
        rw [hnil] at hfirst
        cases hfirst) id items ((hwitnessed clause hclause).hashed items)
  have hall := @run_spawnClauses ctx env input witnessed ⟨hconsensus.few, hconsensus.amounts⟩ hactive
    _ _ none h (fun clause hclause => (hwitnessed clause hclause).lookup) (by simp) hfresh
  have hrun : ∀ out, runAll ctx.language env statements = some out → ∃ ids, List.Forall₂ (fun clause id =>
      Authentic ctx.tx ctx.active (indices witnessed clause) id ∧
        out.lookup clause.1.covenant = some (.bytes id)) entry.genesisGroups ids := by
    intro out hout
    obtain ⟨ids, hids⟩ := hall.2 out hout
    refine ⟨ids, ((List.forall₂_and_left _ _).mpr ⟨fun _ h => h, hids⟩).imp ?_⟩
    rintro clause id ⟨hclause, ⟨items, hitems⟩, hlookup⟩
    exact ⟨((hiff clause hclause).mp hitems).1, hlookup⟩
  refine ⟨hall.1.trans (and_congr_left fun _ => forall₂_congr fun clause hclause => ?_),
    fun out hout => ?_⟩
  · constructor
    · rintro ⟨items, id, hitems⟩
      exact ⟨id, ((hiff clause hclause).mp hitems).1⟩
    · rintro ⟨id, hid⟩
      exact ⟨_, id, (hiff clause hclause).mpr ⟨hid, rfl⟩⟩
  · obtain ⟨ids, hids⟩ := hrun out hout
    refine ⟨ids, ?_, hids⟩
    have hstarts := (List.forall₂_and_left _ _).mpr ⟨hfirsts, hids⟩
    refine Fallible.pairwise_of_forall₂ hstarts.flip (List.pairwise_filterMap.mp
      (List.isChain_iff_pairwise.mp (hall.1.mp ⟨out, hout⟩).2)) ?_
    rintro id id' clause clause' ⟨⟨first, hfirst⟩, hid, -⟩ ⟨-, hid', -⟩ hlt
    exact ne_of_authentic hfirst hlt hid hid'

end

/-! ## an example -/

theorem mintEntry_leads : EntryKind.leader = .delegate → InteractionSection.empty.items = [] := by
  intro h
  cases h

/-- an entry that creates a vault, and a pair of vaults after it -/
def mintEntry : EntryModel where
  name := "mint"
  kind := .leader
  current := ⟨.current, .empty, .empty⟩
  foreign := [
    ⟨.genesis ⟨"fresh", "safe"⟩, .empty,
      ⟨[⟨"single", .static [.inApp "Vault"], .one, .fromStart 0⟩], rfl⟩⟩,
    ⟨.genesis ⟨"pair", "twin"⟩, .empty,
      ⟨[⟨"left", .static [.inApp "Vault"], .one, .fromStart 0⟩,
        ⟨"right", .static [.inApp "Vault"], .one, .fromStart 1⟩], rfl⟩⟩]
  templateSelectors := []
  body := [.become []]
  analysis := _
  analyzed := rfl
  delegateEmits := mintEntry_leads

def mintOutpoint : Outpoint := ⟨List.replicate 32 7, 1⟩

/-- an output that pays to a script hash, before it has a covenant -/
def mintOutput (value : UInt64) (scriptHash : Bytes) : TransactionOutput :=
  ⟨value, 0, [170, 32] ++ scriptHash ++ [135], none⟩

def safeOutput : TransactionOutput :=
  mintOutput 10 [125, 220, 2, 245, 66, 21, 19, 54, 179, 66, 107, 49, 177, 186, 55, 196, 241, 2, 202,
    116, 200, 63, 203, 152, 126, 217, 218, 129, 238, 165, 107, 76]

def leftOutput : TransactionOutput :=
  mintOutput 20 [114, 129, 239, 24, 174, 88, 145, 238, 30, 250, 150, 204, 59, 249, 252, 200, 132, 200,
    144, 128, 35, 90, 247, 116, 7, 28, 160, 83, 207, 179, 189, 243]

def rightOutput : TransactionOutput :=
  mintOutput 30 [82, 155, 130, 102, 142, 155, 113, 3, 21, 231, 147, 243, 122, 146, 222, 35, 136, 252,
    181, 87, 2, 156, 127, 0, 58, 153, 10, 241, 68, 120, 114, 161]

def safeId : Bytes :=
  [243, 6, 156, 190, 89, 166, 183, 176, 33, 16, 73, 209, 140, 81, 32, 71, 161, 76, 92, 154, 206, 195, 2,
    145, 30, 43, 189, 167, 14, 146, 156, 59]

def twinId : Bytes :=
  [211, 132, 153, 124, 244, 99, 132, 204, 174, 97, 100, 85, 107, 139, 229, 150, 156, 68, 15, 111, 5, 82,
    137, 14, 238, 248, 154, 211, 42, 223, 178, 213]

/-- the preimages of both groups with the ids that are hashed from them -/
def mintHashes : List (Bytes × Bytes) :=
  [(genesisPreimage mintOutpoint ([(safeOutput, 0)].map preimageItem), safeId),
    (genesisPreimage mintOutpoint ([(leftOutput, 1), (rightOutput, 2)].map preimageItem), twinId)]

def mintHashed : Set Bytes := {preimage | preimage ∈ mintHashes.map Prod.fst}

def mintTransaction : Transaction where
  inputs := [⟨mintOutpoint, none, [], []⟩]
  outputs := [{ safeOutput with covenant := some ⟨0, safeId⟩ },
    { leftOutput with covenant := some ⟨0, twinId⟩ },
    { rightOutput with covenant := some ⟨0, twinId⟩ }]

def mintContext : SpawnContext where
  tx := mintTransaction
  active := 0
  blake2bWithKey preimage key :=
    if key = Utf8.utf8 "CovenantID".toList then
      (mintHashes.lookup preimage).getD (List.replicate 32 0)
    else List.replicate 32 0

def mintEnv : Sil.Env :=
  [("gen__fresh_single_output_idx", .int 0), ("gen__pair_left_output_idx", .int 1),
    ("gen__pair_right_output_idx", .int 2)]

/-- the vault is the first output, and the pair the other two -/
def mintWitness (_ : SpawnDecl) (output : EntryInteraction) : Int :=
  if output.handle = "single" then 0 else if output.handle = "left" then 1 else 2

theorem mintConsensus : Consensus mintTransaction mintContext.covenantHash mintHashed where
  distinct := by decide
  transactionIds := by decide
  few := by decide
  amounts := by decide
  scripts := by decide
  created output houtput index id hcovenant _ := by
    have hids : ∀ output ∈ mintTransaction.outputs, ∀ binding ∈ output.covenant,
        binding.authorizingInput = 0 ∧ (genesisPreimage mintOutpoint
          ((createdOutputs mintTransaction 0 binding.covenantId).map preimageItem),
            binding.covenantId) ∈ mintHashes := by
      decide +kernel
    have hhash : ∀ pair ∈ mintHashes, mintContext.covenantHash pair.1 = pair.2 := by decide +kernel
    obtain ⟨rfl, hid⟩ := hids output houtput _ hcovenant
    exact ⟨_, rfl, List.mem_map.mpr ⟨_, hid, rfl⟩, hhash _ hid⟩
  inherited input hinput id hid := by
    obtain rfl := List.mem_singleton.mp hinput
    cases hid

/-- the entry creates its two groups, with their ids in its locals -/
theorem spawnPrelude_authenticates_mint : ∃ statements out ids,
    spawnPrelude mintEntry = some statements ∧
      runAll mintContext.language mintEnv statements = some out ∧ ids.Nodup ∧
      List.Forall₂ (fun clause id =>
        Authentic mintTransaction 0 (indices mintWitness clause) id ∧
          out.lookup clause.1.covenant = some (.bytes id)) mintEntry.genesisGroups ids := by
  have hprelude : ∃ statements, spawnPrelude mintEntry = some statements := ⟨_, rfl⟩
  obtain ⟨statements, hprelude⟩ := hprelude
  have hcollision : mintHashed.InjOn mintContext.covenantHash := by
    have hall : ∀ a ∈ mintHashes.map Prod.fst, ∀ b ∈ mintHashes.map Prod.fst,
        mintContext.covenantHash a = mintContext.covenantHash b → a = b := by
      decide +kernel
    exact fun a ha b hb => hall a ha b hb
  have hnames : (spawnPrelude mintEntry).map definedNames = some ["gen__fresh_genesis_preimage", "safe",
      "gen__pair_genesis_preimage", "twin"] := by
    decide +kernel
  rw [hprelude] at hnames
  have hfresh : Fresh mintEnv statements := by
    constructor <;> rw [Option.some_inj.mp hnames] <;> decide
  have hlookup : ∀ clause ∈ mintEntry.genesisGroups, ∀ output ∈ clause.2.outputs.items,
      mintEnv.lookup (hiddenSpawnOutputIdxName clause.1.name output.handle) =
        some (.int (mintWitness clause.1 output)) := by
    decide +kernel
  have hread : readItem mintTransaction 0 = some (preimageItem (safeOutput, 0)) ∧
      readItem mintTransaction 1 = some (preimageItem (leftOutput, 1)) ∧
      readItem mintTransaction 2 = some (preimageItem (rightOutput, 2)) := by
    decide +kernel
  obtain ⟨hsingle, hleft, hright⟩ := hread
  have hwitnessed : ∀ clause ∈ mintEntry.genesisGroups,
      WitnessedClause mintContext mintHashed mintOutpoint mintEnv mintWitness clause := by
    intro clause hclause
    refine ⟨hlookup clause hclause, fun items hitems => ?_⟩
    obtain _ | ⟨_, _ | ⟨_, _ | _⟩⟩ := hclause
    · obtain _ | ⟨hitem, _ | _⟩ := hitems
      obtain rfl := Option.some_inj.mp (hsingle.symm.trans hitem)
      exact List.mem_cons_self
    · obtain _ | ⟨hitem, _ | ⟨hitem', _ | _⟩⟩ := hitems
      obtain rfl := Option.some_inj.mp (hleft.symm.trans hitem)
      obtain rfl := Option.some_inj.mp (hright.symm.trans hitem')
      exact List.mem_cons_of_mem _ List.mem_cons_self
  have hsafe : Authentic mintTransaction 0 [0] safeId := ⟨by decide +kernel, by decide +kernel⟩
  have htwin : Authentic mintTransaction 0 [1, 2] twinId := ⟨by decide +kernel, by decide +kernel⟩
  have hauthentic := spawnPrelude_authenticates hprelude mintConsensus hcollision rfl hwitnessed hfresh
  obtain ⟨out, hout⟩ := hauthentic.1.mpr ⟨by
    rintro clause (_ | ⟨_, _ | ⟨_, _ | _⟩⟩)
    · exact ⟨safeId, hsafe⟩
    · exact ⟨twinId, htwin⟩, by decide +kernel⟩
  obtain ⟨ids, hnodup, hids⟩ := hauthentic.2 out hout
  exact ⟨statements, out, ids, hprelude, hout, hnodup, hids⟩

end Argent.Codegen
