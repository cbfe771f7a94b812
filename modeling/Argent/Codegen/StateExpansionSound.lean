import Argent.Codegen.StateBoundarySound
import Argent.Codegen.StateExpansion

/-!
# State expansions open what was committed

A digest field holds the hash of packed fields, and the prelude of an entry unpacks them.  The two are
emitted separately, and agree by the kinds of the fields.

* `PackedKind`               how a field is packed and unpacked;
* `Packs`                    the bytes of one field of a value;
* `digest_eval`              **the emitted digest is the hash of the packed fields**;
* `run_expansionDefinitions`      the locals that are unpacked are the fields;
* `authenticatedExpansionPrelude_opens`      **an entry runs on exactly the committed payloads**.
-/

set_option linter.unusedSectionVars false

namespace Argent.Codegen
open Argent.Model Argent.Sil Argent.Fallible

/-! ## kinds -/

/-- how the values of a fixed-width type are packed -/
inductive PackedKind where
  | int
  | temporal
  | bool
  | byte
  | bytes (len : Nat)
deriving DecidableEq, Repr

def packedKind (ty : TypeRef) : Option PackedKind :=
  if ty.isActorType then some (.bytes 32)
  else
    match ty.name, ty.array with
    | "int", none => some .int
    | "temporal", none => some .temporal
    | "bool", none => some .bool
    | "byte", none => some .byte
    | "byte", some (.fixed len) => some (.bytes len)
    | "pubkey", none | "cov_id", none => some (.bytes 32)
    | "sig", none => some (.bytes 65)
    | "datasig", none => some (.bytes 64)
    | _, _ => none

namespace PackedKind
variable {α : Type}

def len : PackedKind → Nat
  | int | temporal => 8
  | bool | byte => 1
  | bytes len => len

def pack (value : StateExpr α) : PackedKind → StateExpr α
  | int => .call "__as_cast_byte[8]" [value]
  | temporal => .call "__as_cast_byte[8]" [.call "int" [value]]
  | bool => .call "__as_cast_byte[1]" [.call "__as_cast_int" [value]]
  | byte | bytes _ => .call "byte[]" [value]

def unpack (packed : String) (offset stop : Nat) : PackedKind → StateExpr α
  | int => .call "OpBin2Num" [.slice (.identifier packed) (.int offset) (.int stop)]
  | temporal => .call "temporal"
      [.call "OpBin2Num" [.slice (.identifier packed) (.int offset) (.int stop)]]
  | bool => .ne (.call "OpBin2Num" [.slice (.identifier packed) (.int offset) (.int stop)]) (.int 0)
  | byte => .index (.identifier packed) (.int offset)
  | bytes len => .call s!"byte[{len}]" [.slice (.identifier packed) (.int offset) (.int stop)]

/-- the bytes of a value of the kind -/
def encode (numbers : ScriptNumbers) : PackedKind → StateValue → Option Bytes
  | int, .int value | temporal, .int value => numbers.num2bin 8 value
  | bool, .bool value => numbers.num2bin 1 (if value then 1 else 0)
  | byte, .byte value => some [value]
  | bytes len, .bytes value => if value.length = len then some value else none
  | _, _ => none

end PackedKind

section
variable {α : Type} {ty : TypeRef} {kind : PackedKind}

theorem packedFieldLen_kind {len : Nat} (h : packedFieldLen ty = .ok len) :
    ∃ kind, packedKind ty = some kind ∧ kind.len = len := by
  unfold packedFieldLen at h
  unfold packedKind
  split_ifs at h ⊢ with hactor
  · exact ⟨.bytes 32, rfl, Except.ok.inj h⟩
  · split at h
    all_goals first
      | rename_i hname harray
        rw [hname, harray]
        exact ⟨_, rfl, Except.ok.inj h⟩
      | cases h

theorem packedFieldAst_kind (h : packedKind ty = some kind) (value : StateExpr α) :
    packedFieldAst ty value = some (kind.pack value) := by
  unfold packedKind at h
  unfold packedFieldAst
  split_ifs at h ⊢ with hactor
  · cases h
    rfl
  · split at h
    all_goals first
      | rename_i hname harray
        rw [hname, harray]
        cases h
        rfl
      | cases h

theorem unpackField_kind (h : packedKind ty = some kind) (packed : String) (offset stop : Nat) :
    (unpackField ty packed offset stop : Except String (StateExpr α)) =
      .ok (kind.unpack packed offset stop) := by
  unfold packedKind at h
  unfold unpackField
  by_cases hactor : ty.isActorType = true
  · have hbyte : ¬ (ty.name = "byte" ∧ ty.array = none) := by
      intro ⟨hname, _⟩
      unfold TypeRef.isActorType at hactor
      rw [hname] at hactor
      simp at hactor
    rw [if_pos hactor, Option.some_inj] at h
    rw [if_neg hbyte, if_pos hactor, ← h]
    rfl
  · rw [if_neg hactor] at h
    split at h
    all_goals first
      | rename_i hname harray
        rw [hname, harray, if_neg hactor]
        cases h
        rfl
      | cases h

end

/-! ## one field -/

section
variable {α : Type} {ctx : StateContext α} {env : StateEnv} {kind : PackedKind} {value : StateValue}
  {bytes : Bytes}

theorem PackedKind.length_encode (h : kind.encode ctx.numbers value = some bytes) :
    bytes.length = kind.len := by
  cases kind with
  | int | temporal =>
    cases value with
    | int n => exact ctx.numbers.length_num2bin h
    | bool | byte | bytes | struct => cases h
  | bool =>
    cases value with
    | bool b => exact ctx.numbers.length_num2bin h
    | int | byte | bytes | struct => cases h
  | byte =>
    cases value with
    | byte b =>
      cases h
      rfl
    | int | bool | bytes | struct => cases h
  | bytes len =>
    cases value with
    | bytes given =>
      obtain ⟨hlen, hgiven⟩ := Option.ite_none_right_eq_some.mp h
      rw [← Option.some_inj.mp hgiven]
      exact hlen
    | int | bool | byte | struct => cases h

/-- packing writes the bytes of the value -/
theorem PackedKind.pack_eval {expr : StateExpr α} (h : kind.encode ctx.numbers value = some bytes)
    (hexpr : expr.eval ctx env = some value) :
    (kind.pack expr).eval ctx env = some (.bytes bytes) := by
  cases kind with
  | int =>
    cases value with
    | int n =>
      rw [PackedKind.pack, eval_stateCall hexpr]
      show (ctx.numbers.num2bin 8 n).map StateValue.bytes = _
      rw [show ctx.numbers.num2bin 8 n = some bytes from h]
      rfl
    | bool | byte | bytes | struct => cases h
  | temporal =>
    cases value with
    | int n =>
      have hcast : (StateExpr.call "int" [expr]).eval ctx env = some (.int n) := by
        rw [eval_stateCall hexpr]
        rfl
      rw [PackedKind.pack, eval_stateCall hcast]
      show (ctx.numbers.num2bin 8 n).map StateValue.bytes = _
      rw [show ctx.numbers.num2bin 8 n = some bytes from h]
      rfl
    | bool | byte | bytes | struct => cases h
  | bool =>
    cases value with
    | bool b =>
      have hcast : (StateExpr.call "__as_cast_int" [expr]).eval ctx env =
          some (.int (if b then 1 else 0)) := by
        rw [eval_stateCall hexpr]
        rfl
      rw [PackedKind.pack, eval_stateCall hcast]
      show (ctx.numbers.num2bin 1 _).map StateValue.bytes = _
      rw [show ctx.numbers.num2bin 1 (if b then 1 else 0) = some bytes from h]
      rfl
    | int | byte | bytes | struct => cases h
  | byte =>
    cases value with
    | byte b =>
      rw [PackedKind.pack, eval_stateCall hexpr]
      cases h
      rfl
    | int | bool | bytes | struct => cases h
  | bytes len =>
    cases value with
    | bytes given =>
      obtain ⟨-, hgiven⟩ := Option.ite_none_right_eq_some.mp h
      rw [PackedKind.pack, eval_stateCall hexpr, ← Option.some_inj.mp hgiven]
      rfl
    | int | bool | byte | struct => cases h

theorem eval_payloadSlice {packed : String} {payload before rest : Bytes}
    (hpacked : env.lookup packed = some (.bytes payload)) (hpayload : payload = before ++ bytes ++ rest) :
    (StateExpr.slice (.identifier packed) (.int before.length)
      (.int (before.length + bytes.length : Nat)) : StateExpr α).eval ctx env =
        some (.bytes bytes) := by
  have hslice : ((payload.drop before.length).take bytes.length) = bytes := by
    rw [hpayload, List.append_assoc, List.drop_left, List.take_left]
  have hstop : before.length + bytes.length ≤ payload.length := by
    rw [hpayload, List.length_append, List.length_append]
    omega
  rw [StateExpr.eval, StateExpr.eval, StateExpr.eval, StateExpr.eval, hpacked]
  show (if (0 : Int) ≤ before.length ∧ (before.length : Int) ≤ (before.length + bytes.length : Nat) ∧
      ((before.length + bytes.length : Nat) : Int) ≤ payload.length then
    some (StateValue.bytes ((payload.drop (before.length : Int).toNat).take
      (((before.length + bytes.length : Nat) : Int) - before.length).toNat)) else none) = _
  rw [if_pos (by omega), Int.toNat_natCast,
    show (((before.length + bytes.length : Nat) : Int) - before.length).toNat = bytes.length by omega,
    hslice]

/-- unpacking reads back the value -/
theorem PackedKind.unpack_eval {packed : String} {payload before rest : Bytes}
    (h : kind.encode ctx.numbers value = some bytes)
    (hpacked : env.lookup packed = some (.bytes payload))
    (hpayload : payload = before ++ bytes ++ rest) :
    (kind.unpack packed before.length (before.length + kind.len)).eval ctx env = some value := by
  have hslice : (StateExpr.slice (.identifier packed) (.int before.length)
      (.int (before.length + bytes.length : Nat)) : StateExpr α).eval ctx env =
        some (.bytes bytes) := eval_payloadSlice hpacked hpayload
  rw [PackedKind.length_encode h] at hslice
  have hnumber : ∀ {n : Int}, ctx.numbers.num2bin kind.len n = some bytes →
      ctx.call "OpBin2Num" [.bytes bytes] = some (.int n) := by
    intro n hn
    rw [StateContext.call_bytes, if_neg (StateContext.ne_arrayCast (by decide) _), if_pos rfl,
      ctx.numbers.bin2num_num2bin hn]
    rfl
  cases kind with
  | int =>
    cases value with
    | int n =>
      rw [PackedKind.unpack, eval_stateCall hslice]
      exact hnumber h
    | bool | byte | bytes | struct => cases h
  | temporal =>
    cases value with
    | int n =>
      have hcast := (eval_stateCall hslice).trans (hnumber h)
      rw [PackedKind.unpack, eval_stateCall hcast]
      rfl
    | bool | byte | bytes | struct => cases h
  | bool =>
    cases value with
    | bool b =>
      have hcast := (eval_stateCall hslice).trans (hnumber h)
      rw [PackedKind.unpack, StateExpr.eval, StateExpr.eval, hcast]
      cases b with
      | true => rfl
      | false => rfl
    | int | byte | bytes | struct => cases h
  | byte =>
    cases value with
    | byte b =>
      cases h
      rw [PackedKind.unpack, StateExpr.eval, StateExpr.eval, StateExpr.eval, hpacked]
      show (nth payload (before.length : Int)).map StateValue.byte = _
      have hnth : nth payload (before.length : Int) = some b :=
        nth_eq_some.mpr ⟨before.length, rfl, by rw [hpayload]; simp⟩
      rw [hnth]
      rfl
    | int | bool | bytes | struct => cases h
  | bytes len =>
    cases value with
    | bytes given =>
      obtain ⟨hlen, hgiven⟩ := Option.ite_none_right_eq_some.mp h
      rw [PackedKind.unpack, eval_stateCall hslice, ← Option.some_inj.mp hgiven]
      rw [StateContext.call_bytes, if_pos (Or.inr (by rw [hlen]))]
    | int | bool | byte | struct => cases h

end

/-! ## payloads -/

/-- the bytes of one field of a value -/
def Packs (numbers : ScriptNumbers) (entries : List (String × StateValue)) (field : FieldDecl)
    (part : Bytes) : Prop :=
  ∃ kind value, packedKind field.ty = some kind ∧ entries.lookup field.name = some value ∧
    kind.encode numbers value = some part

/-- the bytes of a value, field by field -/
def PayloadOf (numbers : ScriptNumbers) (fields : List FieldDecl)
    (entries : List (String × StateValue)) (payload : Bytes) : Prop :=
  ∃ parts, List.Forall₂ (Packs numbers entries) fields parts ∧ payload = parts.flatten

section
variable {numbers : ScriptNumbers} {fields : List FieldDecl} {entries : List (String × StateValue)}

theorem Packs.unique {field : FieldDecl} {part part' : Bytes} (h : Packs numbers entries field part)
    (h' : Packs numbers entries field part') : part = part' := by
  obtain ⟨kind, value, hkind, hvalue, hpart⟩ := h
  obtain ⟨kind', value', hkind', hvalue', hpart'⟩ := h'
  obtain rfl := Option.some_inj.mp (hkind.symm.trans hkind')
  obtain rfl := Option.some_inj.mp (hvalue.symm.trans hvalue')
  exact Option.some_inj.mp (hpart.symm.trans hpart')

theorem Packs.length {field : FieldDecl} {part : Bytes} (h : Packs numbers entries field part) {len : Nat}
    (hlen : packedFieldLen field.ty = .ok len) : part.length = len := by
  obtain ⟨kind, value, hkind, -, hpart⟩ := h
  obtain ⟨kind', hkind', rfl⟩ := packedFieldLen_kind hlen
  obtain rfl := Option.some_inj.mp (hkind.symm.trans hkind')
  exact @PackedKind.length_encode Unit ⟨numbers, id, fun _ => none, fun _ => none⟩ kind value _ hpart

theorem PayloadOf.unique {payload payload' : Bytes} (h : PayloadOf numbers fields entries payload)
    (h' : PayloadOf numbers fields entries payload') : payload = payload' := by
  obtain ⟨parts, hparts, rfl⟩ := h
  obtain ⟨parts', hparts', rfl⟩ := h'
  induction hparts generalizing parts' with
  | nil =>
    cases hparts'
    rfl
  | cons hpart _ ih =>
    obtain _ | ⟨hpart', hrest'⟩ := hparts'
    rw [List.flatten_cons, List.flatten_cons, hpart.unique hpart', ih _ hrest']

theorem PayloadOf.length {payload : Bytes} (h : PayloadOf numbers fields entries payload) {len : Nat}
    (hlen : packedFieldsLen fields = .ok len) : payload.length = len := by
  obtain ⟨parts, hparts, rfl⟩ := h
  have hfold : ∀ {fields : List FieldDecl} {parts : List Bytes} {start stop : Nat},
      List.Forall₂ (Packs numbers entries) fields parts →
      fields.foldlM (fun sum field => do
        let len ← packedFieldLen field.ty
        return sum + len) start = .ok stop → start + parts.flatten.length = stop := by
    intro fields parts start stop hparts
    induction hparts generalizing start with
    | nil => exact fun h => pure_eq_ok.mp h
    | cons hpart _ ih =>
      intro h
      rw [List.foldlM_cons] at h
      obtain ⟨next, hnext, h⟩ := bind_eq_ok.mp h
      obtain ⟨len, hlen, hnext⟩ := bind_eq_ok.mp hnext
      rw [← ih h, ← pure_eq_ok.mp hnext, List.flatten_cons, List.length_append, hpart.length hlen,
        Nat.add_assoc]
  rw [← hfold hparts hlen, Nat.zero_add]

end

/-! ## digests -/

theorem exists_bind_value {α β : Type} {x : Option α} {f : α → Option β} {P : β → Prop}
    (h : ∃ a, x = some a ∧ ∃ b, f a = some b ∧ P b) : ∃ b, (x >>= f) = some b ∧ P b := by
  obtain ⟨a, rfl, hb⟩ := h
  exact hb

theorem exists_mapM_forall₂ {α β γ : Type} {f : α → Option β} {Q : β → γ → Prop} {l : List α}
    {m : List γ} (h : List.Forall₂ (fun a c => ∃ b, f a = some b ∧ Q b c) l m) :
    ∃ out, l.mapM f = some out ∧ List.Forall₂ Q out m := by
  induction h with
  | nil => exact ⟨[], rfl, .nil⟩
  | cons hab _ ih =>
    obtain ⟨b, hb, hQ⟩ := hab
    obtain ⟨out, hout, hall⟩ := ih
    refine ⟨b :: out, ?_, .cons hQ hall⟩
    rw [List.mapM_cons, hb, hout]
    rfl

theorem find?_field {fields : List FieldDecl} (hnames : (fields.map (·.name)).Nodup)
    {field : FieldDecl} (hmem : field ∈ fields) :
    fields.find? (fun candidate => decide (candidate.name = field.name)) = some field := by
  cases hfind : fields.find? fun candidate => decide (candidate.name = field.name) with
  | none => exact absurd (decide_eq_true rfl) (List.find?_eq_none.mp hfind field hmem)
  | some candidate =>
    have hname := of_decide_eq_true (List.find?_some
      (p := fun candidate : FieldDecl => decide (candidate.name = field.name)) hfind)
    rw [List.inj_on_of_nodup_map hnames (List.mem_of_find?_eq_some hfind) hmem hname]

section
variable {α : Type} {ctx : StateContext α} {env : StateEnv} {model : StateModel}
  {lowering : ContractStateLowering} {source : SourceStateId} {state : StateDecl}

theorem eval_blake3 {expr : StateExpr α} {bytes : Bytes}
    (h : expr.eval ctx env = some (.bytes bytes)) :
    (StateExpr.call "blake3" [expr]).eval ctx env = some (.bytes (ctx.blake3 bytes)) := by
  rw [eval_stateCall h, StateContext.call_bytes,
    if_neg (StateContext.ne_arrayCast (by decide) _), if_neg (by decide), if_pos rfl]

/-- **The emitted digest is the hash of the packed fields.** -/
theorem digest_eval (h : MemoryState model source state)
    (hnames : (state.fields.map (·.name)).Nodup)
    (hplanned : ∃ representation layout storage,
      lowering.sourceRepresentations source = some representation ∧
        stateLayouts model source = .ok (layout, storage, representation.sourceToStorage))
    (depth : Nat) {expr : StateExpr α} {entries : List (String × StateValue)} {payload : Bytes}
    (hexpr : expr.eval ctx env = some (.struct entries))
    (hpayload : PayloadOf ctx.numbers state.fields entries payload) :
    ∃ ast, authoredStatePayloadDigestAst model lowering (depth + 1) source expr = some ast ∧
      ast.eval ctx env = some (.bytes (ctx.blake3 payload)) := by
  obtain ⟨representation, layout, storage, hrepresentation, hlayouts⟩ := hplanned
  obtain ⟨state', stored, hof⟩ := stateLayouts_ok hlayouts
  obtain rfl := Except.ok.inj (h.declared.symm.trans hof.declared)
  obtain rfl := Except.ok.inj (h.storageStateBySource.symm.trans hof.base)
  obtain ⟨parts, hparts, rfl⟩ := hpayload
  unfold authoredStatePayloadDigestAst
  refine exists_bind_value ⟨representation, hrepresentation, ?_⟩
  refine exists_bind_value ⟨state, by rw [h.storageStateBySource]; rfl, ?_⟩
  refine exists_bind_value (Exists.elim (exists_mapM_forall₂ (m := parts)
    (Q := fun ast part => ast.eval ctx env = some (.bytes part)) ?_) fun asts hasts =>
      ⟨asts, hasts.1, _, rfl, ?_⟩)
  · -- a field of a plain state is stored as it is
    refine forall₂_beside hof.fields hparts fun field hfield lowered part hlowers hpart => ?_
    obtain ⟨kind, value, hkind, hvalue, hencode⟩ := hpart
    have hidentity : lowered.expandedState = none := by
      cases hexpanded : lowered.expandedState with
      | none => rfl
      | some expanded =>
        obtain ⟨expansion, _, _, hexpansion, -⟩ := hlowers.digest expanded hexpanded
        rw [h.plain] at hexpansion
        cases hexpansion
    have hread : (expr.field field.name).eval ctx env = some value :=
      (eval_stateField hexpr).trans hvalue
    refine ⟨kind.pack (expr.field field.name), ?_, kind.pack_eval hencode hread⟩
    rw [hlowers.stored, hlowers.authored, hidentity, find?_field hnames hfield]
    exact packedFieldAst_kind hkind _
  · have hbytes : (StateExpr.call "byte[]" [StateExpr.concat asts]).eval ctx env =
        some (.bytes parts.flatten) := by
      rw [eval_stateCall (eval_concat hasts.2)]
      rfl
    exact eval_blake3 hbytes

/-! ## the prelude -/

open Straightline

variable {spec : StateExpansionPlan} {hidden : String} {out : StateEnv}
  {entries : List (String × StateValue)}

/-- The locals of the fields from an offset on are the fields of the value: where the names are new
the definitions run, and wherever they run the locals hold the values. -/
theorem run_expansionDefinitions {fields : List FieldDecl} {parts : List Bytes}
    (hparts : List.Forall₂ (Packs ctx.numbers entries) fields parts) :
    ∀ {offset : Nat} {definitions : List (PreludeStatement α)} {env : StateEnv}
      {payload before : Bytes},
    expansionDefinitions spec hidden offset fields = .ok definitions →
    env.lookup hidden = some (.bytes payload) → payload = before ++ parts.flatten →
    before.length = offset →
      ((definedNames definitions).Nodup → (∀ name ∈ definedNames definitions, env.lookup name = none) →
        ∃ out, runAll ctx.language env definitions = some out) ∧
      ∀ out, runAll ctx.language env definitions = some out → ∀ field ∈ fields,
        out.lookup (hiddenStateExpansionFieldName spec field.name) = entries.lookup field.name := by
  induction hparts with
  | nil =>
    intro offset definitions env payload before h _ _ _
    cases h
    exact ⟨fun _ _ => ⟨env, rfl⟩, fun _ _ _ hmem => absurd hmem List.not_mem_nil⟩
  | @cons field part fields parts hpart hparts ih =>
    intro offset definitions env payload before h hhidden hpayload hbefore
    obtain ⟨len, hlen, h⟩ := bind_eq_ok.mp h
    obtain ⟨expr, hexpr, h⟩ := bind_eq_ok.mp h
    obtain ⟨rest, hrest, h⟩ := bind_eq_ok.mp h
    obtain rfl := pure_eq_ok.mp h
    have hpartLen := hpart.length hlen
    obtain ⟨kind, value, hkind, hvalue, hencode⟩ := hpart
    -- the local of this field
    have heval : expr.eval ctx env = some value := by
      rw [unpackField_kind hkind] at hexpr
      rw [← Except.ok.inj hexpr, ← hpartLen, ← hbefore, PackedKind.length_encode hencode]
      have hparts : payload = before ++ part ++ parts.flatten := by
        rw [hpayload, List.flatten_cons, List.append_assoc]
      exact kind.unpack_eval hencode hhidden hparts
    have hnext : ∀ {next : StateEnv},
        run ctx.language env (.define (lowerPlannedType field.ty)
          (hiddenStateExpansionFieldName spec field.name) expr) = some next →
        next.lookup hidden = some (.bytes payload) := fun hrun => run_keeps hrun hhidden
    have hpayload' : payload = (before ++ part) ++ parts.flatten := by
      rw [hpayload, List.flatten_cons, List.append_assoc]
    have hbefore' : (before ++ part).length = offset + len := by
      rw [List.length_append, hbefore, hpartLen]
    refine ⟨fun hnodup hfresh => ?_, fun out hrun other hother => ?_⟩
    · have hrun : run ctx.language env (.define (lowerPlannedType field.ty)
          (hiddenStateExpansionFieldName spec field.name) expr) =
          some ((hiddenStateExpansionFieldName spec field.name, value) :: env) :=
        run_define.mpr ⟨hfresh _ List.mem_cons_self, value, heval, rfl⟩
      obtain ⟨hnot, hnodup⟩ := List.nodup_cons.mp hnodup
      obtain ⟨out, hout⟩ := (ih hrest (hnext hrun) hpayload' hbefore').1 hnodup fun name hname => by
        have hne : name ≠ hiddenStateExpansionFieldName spec field.name := by
          intro heq
          rw [heq] at hname
          exact hnot hname
        rw [lookup_cons_of_ne hne]
        exact hfresh name (List.mem_cons_of_mem _ hname)
      exact ⟨out, runAll_cons.mpr ⟨_, hrun, hout⟩⟩
    · obtain ⟨next, hfirst, hlater⟩ := runAll_cons.mp hrun
      obtain rfl | hother := List.mem_cons.mp hother
      · obtain ⟨-, given, hgiven, rfl⟩ := run_define.mp hfirst
        obtain rfl := Option.some_inj.mp (heval.symm.trans hgiven)
        rw [hvalue]
        refine runAll_keeps hlater ?_
        rw [List.lookup_cons, beq_self_eq_true]
      · exact (ih hrest (hnext hfirst) hpayload' hbefore').2 out hlater other hother

/-- the check passes for the hashed payload, and for no other -/
theorem run_expansionCheck {witness payload : Bytes}
    (hinj : ctx.blake3 witness = ctx.blake3 payload → witness = payload)
    (hhidden : env.lookup (hiddenStateExpansionPreimageName spec) = some (.bytes witness))
    (hfield : env.lookup spec.field = some (.bytes (ctx.blake3 payload))) :
    run ctx.language env (expansionCheck spec) = some out ↔ witness = payload ∧ env = out := by
  have hcast : (StateExpr.call "byte[]"
      [.identifier (hiddenStateExpansionPreimageName spec)] : StateExpr α).eval ctx env =
        some (.bytes witness) := by
    rw [eval_stateCall (eval_stateIdentifier.trans hhidden)]
    rfl
  unfold expansionCheck
  rw [run_require, passes_iff, StateExpr.eval, eval_blake3 hcast, eval_stateIdentifier, hfield]
  show some (StateValue.bool (decide (ctx.blake3 witness = ctx.blake3 payload))) = _ ∧ _ ↔ _
  rw [Option.some_inj, StateValue.bool.injEq, decide_eq_true_eq]
  exact and_congr_left fun _ => ⟨hinj, congrArg ctx.blake3⟩

theorem run_expansionStatements {block : List (PreludeStatement α)}
    (hblock : expansionStatements model spec = .ok block)
    {memory : StateDecl} (hmemory : model.stateBySource spec.memorySource = .ok memory)
    {witness payload : Bytes} (hpayload : PayloadOf ctx.numbers memory.fields entries payload)
    (hinj : ctx.blake3 witness = ctx.blake3 payload → witness = payload)
    (hhidden : env.lookup (hiddenStateExpansionPreimageName spec) = some (.bytes witness))
    (hfield : env.lookup spec.field = some (.bytes (ctx.blake3 payload))) :
    (witness = payload → (definedNames block).Nodup →
      (∀ name ∈ definedNames block, env.lookup name = none) →
        ∃ out, runAll ctx.language env block = some out) ∧
    ∀ out, runAll ctx.language env block = some out → witness = payload ∧ ∀ field ∈ memory.fields,
      out.lookup (hiddenStateExpansionFieldName spec field.name) = entries.lookup field.name := by
  obtain ⟨_, hmemory', hblock⟩ := bind_eq_ok.mp hblock
  obtain rfl := Except.ok.inj (hmemory.symm.trans hmemory')
  obtain ⟨definitions, hdefinitions, hblock⟩ := bind_eq_ok.mp hblock
  obtain rfl := pure_eq_ok.mp hblock
  obtain ⟨parts, hparts, rfl⟩ := hpayload
  have hcheck : ∀ out, run ctx.language env (expansionCheck spec) = some out ↔
      witness = parts.flatten ∧ env = out :=
    fun _ => run_expansionCheck hinj hhidden hfield
  constructor
  · intro hwitness hnodup hfresh
    rw [hwitness] at hhidden
    obtain ⟨out, hout⟩ := (run_expansionDefinitions hparts hdefinitions hhidden
      (List.nil_append _).symm rfl).1 hnodup hfresh
    exact ⟨out, runAll_cons.mpr ⟨env, (hcheck env).mpr ⟨hwitness, rfl⟩, hout⟩⟩
  · intro out hout
    obtain ⟨next, hfirst, hrest⟩ := runAll_cons.mp hout
    obtain ⟨hwitness, rfl⟩ := (hcheck next).mp hfirst
    rw [hwitness] at hhidden
    exact ⟨hwitness, (run_expansionDefinitions hparts hdefinitions hhidden
      (List.nil_append _).symm rfl).2 out hrest⟩

/-- A digest field holds what the emitted digest code computes for a value of the memory state.  The
fields of the memory state have names of their own, and each holds a value of its type. -/
def Committed (ctx : StateContext α) (model : StateModel) (lowering : ContractStateLowering)
    (env : StateEnv) (spec : StateExpansionPlan) (entries : List (String × StateValue)) :
    Prop :=
  ∃ memory payload, model.stateBySource spec.memorySource = .ok memory ∧
    (memory.fields.map (·.name)).Nodup ∧ PayloadOf ctx.numbers memory.fields entries payload ∧
    ∃ (depth : Nat) (authored : StateExpr α) (written : StateEnv) (digest : StateExpr α),
      authored.eval ctx written = some (.struct entries) ∧
      authoredStatePayloadDigestAst model lowering (depth + 1) spec.memorySource authored =
        some digest ∧
      digest.eval ctx written = env.lookup spec.field

/-- the witness is the packed value of the memory state -/
def Opens (ctx : StateContext α) (model : StateModel) (spec : StateExpansionPlan)
    (entries : List (String × StateValue)) (witness : Bytes) : Prop :=
  ∃ memory, model.stateBySource spec.memorySource = .ok memory ∧
    PayloadOf ctx.numbers memory.fields entries witness

theorem forActor_spec {reader : DeclId} {specs : List StateExpansionPlan}
    (hvalid : ∀ source ∈ model.stateSources, validateStateExpansion model source = .ok ⟨⟩)
    (hspecs : StateExpansionPlan.forActor model reader = .ok specs)
    (hspec : spec ∈ specs) : ∃ memory, MemoryState model spec.memorySource memory ∧
      packedFieldsLen memory.fields = .ok spec.packedLen := by
  obtain ⟨source, -, hspecs⟩ := bind_eq_ok.mp hspecs
  obtain ⟨state, hstate, hspecs⟩ := bind_eq_ok.mp hspecs
  cases hexpansion : state.expansion with
  | none =>
    rw [hexpansion] at hspecs
    rw [← pure_eq_ok.mp hspecs] at hspec
    cases hspec
  | some expansion =>
    rw [hexpansion] at hspecs
    obtain ⟨digest, hdigest, hok⟩ := mem_of_mapM_ok hspecs hspec
    obtain ⟨memorySource, hsource, hok⟩ := bind_eq_ok.mp hok
    obtain ⟨memory, hmemory, hok⟩ := bind_eq_ok.mp hok
    obtain ⟨len, hlen, hok⟩ := bind_eq_ok.mp hok
    obtain rfl := pure_eq_ok.mp hok
    obtain ⟨memory', hplain⟩ := memoryState_of_digest hvalid hstate hexpansion hdigest hsource
    obtain rfl := Except.ok.inj (hmemory.symm.trans hplain.declared)
    exact ⟨memory, hplain, hlen⟩

theorem Committed.lookup {app : CompiledApp} {writer : ActorModel}
    (hlowering : contractStateLowering model app.toApp app.plan writer = .ok lowering)
    {memory : StateDecl} (hmemory : MemoryState model spec.memorySource memory)
    (h : Committed ctx model lowering env spec entries) : ∃ payload,
      PayloadOf ctx.numbers memory.fields entries payload ∧
        env.lookup spec.field = some (.bytes (ctx.blake3 payload)) := by
  obtain ⟨memory', payload, hdeclared, hnames, hpayload, depth, authored, written, digest,
    hauthored, hdigest, hfield⟩ := h
  obtain rfl := Except.ok.inj (hmemory.declared.symm.trans hdeclared)
  obtain ⟨ast, hast, heval⟩ := digest_eval hmemory hnames
    (contractStateLowering_representation hlowering (model.listed _ _ hdeclared)) depth hauthored
    hpayload
  obtain rfl := Option.some_inj.mp (hast.symm.trans hdigest)
  exact ⟨payload, hpayload, hfield.symm.trans heval⟩

/-- the statements of all digests, one after the other -/
theorem run_expansionBlocks {specs : List StateExpansionPlan} {blocks : List (List (PreludeStatement α))}
    {witness : StateExpansionPlan → Bytes}
    {entries : StateExpansionPlan → List (String × StateValue)}
    (hblocks : List.Forall₂ (fun spec block => expansionStatements model spec = .ok block)
      specs blocks) :
    ∀ {env : StateEnv},
    (∀ spec ∈ specs,
      env.lookup (hiddenStateExpansionPreimageName spec) = some (.bytes (witness spec))) →
    (∀ spec ∈ specs, ∀ payload, Opens ctx model spec (entries spec) payload →
      ctx.blake3 (witness spec) = ctx.blake3 payload → witness spec = payload) →
    (∀ spec ∈ specs, ∃ payload, Opens ctx model spec (entries spec) payload ∧
      env.lookup spec.field = some (.bytes (ctx.blake3 payload))) →
      ((∀ spec ∈ specs, Opens ctx model spec (entries spec) (witness spec)) →
        (definedNames blocks.flatten).Nodup →
        (∀ name ∈ definedNames blocks.flatten, env.lookup name = none) →
          ∃ out, runAll ctx.language env blocks.flatten = some out) ∧
      ∀ out, runAll ctx.language env blocks.flatten = some out → ∀ spec ∈ specs,
        Opens ctx model spec (entries spec) (witness spec) ∧
        ∀ memory, model.stateBySource spec.memorySource = .ok memory → ∀ field ∈ memory.fields,
          out.lookup (hiddenStateExpansionFieldName spec field.name) =
            (entries spec).lookup field.name := by
  induction hblocks with
  | nil => exact fun _ _ _ => ⟨fun _ _ _ => ⟨_, rfl⟩, fun _ _ _ hmem => absurd hmem List.not_mem_nil⟩
  | @cons spec block specs blocks hblock hblocks ih =>
    intro env hwitness hinj hcommitted
    obtain ⟨payload, ⟨memory, hdeclared, hpayload⟩, hfield⟩ :=
      hcommitted spec List.mem_cons_self
    have hone := run_expansionStatements hblock hdeclared hpayload
      (hinj spec List.mem_cons_self payload ⟨memory, hdeclared, hpayload⟩)
      (hwitness spec List.mem_cons_self) hfield
    have hrest := fun {next : StateEnv} (hnext : runAll ctx.language env block = some next) =>
      @ih next
        (fun spec hspec => runAll_keeps hnext (hwitness spec (List.mem_cons_of_mem _ hspec)))
        (fun spec hspec => hinj spec (List.mem_cons_of_mem _ hspec))
        (fun spec hspec => (hcommitted spec (List.mem_cons_of_mem _ hspec)).imp fun payload h =>
          ⟨h.1, runAll_keeps hnext h.2⟩)
    constructor
    · intro hopens hnodup hfresh
      rw [List.flatten_cons, definedNames_append] at hnodup hfresh
      obtain ⟨hfirst, hlater, hdisjoint⟩ := List.nodup_append.mp hnodup
      obtain ⟨memory', hdeclared', hopen⟩ := hopens spec List.mem_cons_self
      obtain rfl := Except.ok.inj (hdeclared.symm.trans hdeclared')
      obtain ⟨next, hnext⟩ := hone.1 (hopen.unique hpayload) hfirst fun name hname =>
        hfresh name (List.mem_append_left _ hname)
      obtain ⟨out, hout⟩ := (hrest hnext).1
        (fun spec hspec => hopens spec (List.mem_cons_of_mem _ hspec)) hlater fun name hname =>
          runAll_unseen hnext (hfresh name (List.mem_append_right _ hname)) fun hfirst =>
            hdisjoint name hfirst name hname rfl
      exact ⟨out, runAll_append.mpr ⟨next, hnext, hout⟩⟩
    · intro out hout other hother
      obtain ⟨next, hnext, hlater⟩ := runAll_append.mp hout
      obtain rfl | hother := List.mem_cons.mp hother
      · obtain ⟨hopen, hfields⟩ := hone.2 next hnext
        refine ⟨⟨memory, hdeclared, hopen ▸ hpayload⟩, fun memory' hdeclared' field hmem => ?_⟩
        obtain rfl := Except.ok.inj (hdeclared.symm.trans hdeclared')
        obtain ⟨parts, hparts, -⟩ := hpayload
        obtain ⟨part, -, kind, value, -, hvalue, -⟩ := mem_of_forall₂_left hparts hmem
        rw [hvalue]
        exact runAll_keeps hlater ((hfields field hmem).trans hvalue)
      · exact (hrest hnext).2 out hlater other hother

/-- **An entry runs on exactly the committed payloads**, where the names of its locals are new and no
witness collides with the payload of its field: the prelude passes if and only if every witness is
the packed value that the digest field was computed from.  Wherever it passes the locals hold the
fields of the values, and each witness has the planned width. -/
theorem authenticatedExpansionPrelude_opens {app : CompiledApp} {writer : ActorModel}
    {reader : DeclId} {specs : List StateExpansionPlan}
    {statements : List (PreludeStatement α)} {witness : StateExpansionPlan → Bytes}
    {entries : StateExpansionPlan → List (String × StateValue)}
    (hinj : ∀ spec ∈ specs, ∀ payload, Opens ctx model spec (entries spec) payload →
      ctx.blake3 (witness spec) = ctx.blake3 payload → witness spec = payload)
    (hvalid : ∀ source ∈ model.stateSources, validateStateExpansion model source = .ok ⟨⟩)
    (hlowering : contractStateLowering model app.toApp app.plan writer = .ok lowering)
    (hspecs : StateExpansionPlan.forActor model reader = .ok specs)
    (hprelude : authenticatedExpansionPrelude model reader = .ok statements)
    (hwitness : ∀ spec ∈ specs,
      env.lookup (hiddenStateExpansionPreimageName spec) = some (.bytes (witness spec)))
    (hcommitted : ∀ spec ∈ specs, Committed ctx model lowering env spec (entries spec))
    (hnew : (definedNames statements).Nodup ∧
      ∀ name ∈ definedNames statements, env.lookup name = none) :
    ((∃ out, runAll ctx.language env statements = some out) ↔
      ∀ spec ∈ specs, Opens ctx model spec (entries spec) (witness spec)) ∧
    ∀ out, runAll ctx.language env statements = some out → ∀ spec ∈ specs,
      (witness spec).length = spec.packedLen ∧
      ∀ memory, model.stateBySource spec.memorySource = .ok memory → ∀ field ∈ memory.fields,
        out.lookup (hiddenStateExpansionFieldName spec field.name) =
          (entries spec).lookup field.name := by
  obtain ⟨_, hspecs', hprelude⟩ := bind_eq_ok.mp hprelude
  obtain rfl := Except.ok.inj (hspecs.symm.trans hspecs')
  obtain ⟨blocks, hblocks, hprelude⟩ := bind_eq_ok.mp hprelude
  obtain rfl := pure_eq_ok.mp hprelude
  have hmemory := fun spec (hspec : spec ∈ specs) => forActor_spec hvalid hspecs hspec
  have hrun := run_expansionBlocks (mapM_ok hblocks) hwitness hinj fun spec hspec => by
    obtain ⟨memory, hplain, -⟩ := hmemory spec hspec
    obtain ⟨payload, hpayload, hfield⟩ := (hcommitted spec hspec).lookup hlowering hplain
    exact ⟨payload, ⟨memory, hplain.declared, hpayload⟩, hfield⟩
  refine ⟨⟨fun ⟨out, hout⟩ spec hspec => (hrun.2 out hout spec hspec).1, fun hopens => ?_⟩, ?_⟩
  · exact hrun.1 hopens hnew.1 hnew.2
  · intro out hout spec hspec
    obtain ⟨⟨memory, hdeclared, hpayload⟩, hfields⟩ := hrun.2 out hout spec hspec
    obtain ⟨memory', hplain, hlen⟩ := hmemory spec hspec
    obtain rfl := Except.ok.inj (hdeclared.symm.trans hplain.declared)
    exact ⟨hpayload.length hlen, hfields⟩

end

/-! ## the box of a vault -/

/-- the vault of the bank, with the payload of its box -/
def vaultStates : StateModel := bankStates [contents, amount] boxFields

def boxEntries : List (String × StateValue) := [("open", .bool true), ("amount", .int 5)]

def boxPayload : Bytes := [1] ++ [5, 0, 0, 0, 0, 0, 0, 0]

/-- the payload of a box with an amount of 6 -/
def otherPayload : Bytes := [1] ++ [6, 0, 0, 0, 0, 0, 0, 0]

/-- the payloads of both boxes with their hashes -/
def boxHashes : List (Bytes × Bytes) :=
  [(boxPayload, [162, 66, 37, 196, 142, 101, 207, 16, 143, 182, 0, 8, 150, 93, 162, 118, 195, 185, 125,
      41, 40, 173, 43, 194, 171, 36, 39, 204, 198, 147, 109, 222]),
    (otherPayload, [244, 172, 220, 57, 125, 159, 109, 108, 242, 250, 158, 53, 9, 227, 34, 134, 228, 35,
      53, 232, 64, 74, 140, 114, 156, 105, 184, 194, 166, 199, 51, 46])]

def boxContext : StateContext Unit where
  numbers := signMagnitude
  blake3 := fun bytes => (boxHashes.lookup bytes).getD (List.replicate 32 0)
  authored _ := some (.struct boxEntries)
  planned _ := none

def boxSpec : StateExpansionPlan where
  state := "Vault"
  field := "contents"
  memoryState := "Box"
  fieldId := ⟨⟨"Vault"⟩, "contents"⟩
  memorySource := ⟨"Box"⟩
  packedLen := 9

/-- the entry of the vault with a witness, before its prelude -/
def vaultEnv (witness : Bytes) : StateEnv :=
  [(hiddenStateExpansionPreimageName boxSpec, .bytes witness),
    ("contents", .bytes (boxContext.blake3 boxPayload))]

theorem boxSpecs : StateExpansionPlan.forActor vaultStates "Bank" = .ok [boxSpec] := by
  rfl

theorem boxPayload_of : PayloadOf signMagnitude boxFields boxEntries boxPayload :=
  ⟨[[1], [5, 0, 0, 0, 0, 0, 0, 0]], .cons ⟨.bool, .bool true, rfl, rfl, rfl⟩
    (.cons ⟨.int, .int 5, rfl, rfl, rfl⟩ .nil), rfl⟩

theorem boxState : MemoryState vaultStates ⟨"Box"⟩ ⟨"Box", boxFields, none⟩ where
  declared := rfl
  plain := rfl
  packed field hfield := by
    obtain rfl | hfield := List.mem_cons.mp hfield
    · exact ⟨1, rfl⟩
    · obtain rfl := List.mem_singleton.mp hfield
      exact ⟨8, rfl⟩

theorem boxPayload_opens {witness : Bytes} :
    Opens boxContext vaultStates boxSpec boxEntries witness ↔ witness = boxPayload := by
  constructor
  · rintro ⟨memory, hdeclared, hpayload⟩
    obtain rfl := Except.ok.inj (boxState.declared.symm.trans hdeclared)
    exact hpayload.unique boxPayload_of
  · rintro rfl
    exact ⟨_, boxState.declared, boxPayload_of⟩

theorem vaultPrelude_names :
    (authenticatedExpansionPrelude vaultStates "Bank" : Except String (List
      (PreludeStatement Unit))).toOption.map Straightline.definedNames =
        some ["gen__contents_open", "gen__contents_amount"] := by
  decide +kernel

/-- the vault opens its box with the payload, and not with the payload of another box -/
theorem authenticatedExpansionPrelude_opens_box :
    ∃ statements, authenticatedExpansionPrelude vaultStates "Bank" = .ok statements ∧
      (∃ out, Straightline.runAll boxContext.language (vaultEnv boxPayload) statements = some out ∧
        out.lookup "gen__contents_amount" = some (.int 5)) ∧
      ∀ out, Straightline.runAll boxContext.language (vaultEnv otherPayload) statements ≠ some out := by
  obtain ⟨⟨lowering, outputs, plan, target⟩, hall⟩ := exists_ok_of_isOk bankOutput_isOk
  obtain ⟨written, hlowering, -⟩ := bind_eq_ok.mp hall
  have hnames := vaultPrelude_names
  cases hprelude : (authenticatedExpansionPrelude vaultStates "Bank" :
      Except String (List (PreludeStatement Unit))) with
  | error error =>
    rw [hprelude] at hnames
    cases hnames
  | ok statements =>
    rw [hprelude] at hnames
    replace hnames := Option.some_inj.mp hnames
    obtain ⟨digest, hdigest, heval⟩ := digest_eval boxState
      (by decide) (contractStateLowering_representation hlowering (by decide)) 0
      (show (StateExpr.authored ()).eval boxContext [] = some (.struct boxEntries) by
        rw [StateExpr.eval]
        rfl) boxPayload_of
    have hcommitted : ∀ witness,
        Committed boxContext vaultStates written (vaultEnv witness) boxSpec boxEntries := fun _ =>
      ⟨_, boxPayload, boxState.declared, by decide, boxPayload_of, 0, .authored (), [], digest, by
        rw [StateExpr.eval]
        rfl, hdigest, heval.trans rfl⟩
    have hinj : ∀ witness ∈ [boxPayload, otherPayload],
        boxContext.blake3 witness = boxContext.blake3 boxPayload → witness = boxPayload := by
      decide
    have hnew : ∀ witness, ∀ name ∈ Straightline.definedNames statements,
        (vaultEnv witness).lookup name = none := by
      intro witness name hname
      rw [hnames] at hname
      obtain rfl | hname := List.mem_cons.mp hname
      · rfl
      · rw [List.mem_singleton.mp hname]
        rfl
    have hopens : ∀ witness ∈ [boxPayload, otherPayload],
        ((∃ out, Straightline.runAll boxContext.language (vaultEnv witness) statements = some out) ↔
          ∀ spec ∈ [boxSpec], Opens boxContext vaultStates spec boxEntries witness) ∧
        ∀ out, Straightline.runAll boxContext.language (vaultEnv witness) statements = some out →
          ∀ spec ∈ [boxSpec], witness.length = spec.packedLen ∧
            ∀ memory, vaultStates.stateBySource spec.memorySource = .ok memory →
              ∀ field ∈ memory.fields,
                out.lookup (hiddenStateExpansionFieldName spec field.name) =
                  boxEntries.lookup field.name := by
      intro witness hwitness
      refine authenticatedExpansionPrelude_opens ?_ bankStates_valid hlowering boxSpecs hprelude ?_ ?_
        ⟨?_, hnew witness⟩
      · intro spec hspec payload hpayload heq
        obtain rfl := List.mem_singleton.mp hspec
        rw [boxPayload_opens.mp hpayload] at heq ⊢
        exact hinj witness hwitness heq
      · intro spec hspec
        obtain rfl := List.mem_singleton.mp hspec
        rfl
      · intro spec hspec
        obtain rfl := List.mem_singleton.mp hspec
        exact hcommitted witness
      · rw [hnames]
        decide
    obtain ⟨hright, hfields⟩ := hopens boxPayload List.mem_cons_self
    obtain ⟨out, hout⟩ := hright.mpr fun spec hspec => by
      obtain rfl := List.mem_singleton.mp hspec
      exact boxPayload_opens.mpr rfl
    refine ⟨statements, rfl, ⟨out, hout, ?_⟩, fun out hout => ?_⟩
    · exact (hfields out hout boxSpec List.mem_cons_self).2 _ boxState.declared amount (by decide)
    · have hopened := (hopens otherPayload (by decide)).1.mp ⟨out, hout⟩ boxSpec List.mem_cons_self
      exact absurd (boxPayload_opens.mp hopened) (by decide)

end Argent.Codegen
