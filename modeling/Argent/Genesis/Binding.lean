import Argent.Base.Delimited
import Argent.Genesis.Bootstrap

/-!
# Genesis proofs are binding

Two genesis proofs that verify against one covenant id describe one group.

* `covenantIdPreimage`      the bytes that a covenant id is hashed from;
* `covenantIdPreimage_inj`      outpoint and outputs are read off the preimage;
* `fill_eq`                a script tells its actor and the encoded state;
* `ArgentGenesisProof.verify_binds`      **verified proofs of one id have the same outpoint and, output by
                           output, the same index, value, actor and encoded state**.
-/

set_option linter.unusedSectionVars false

namespace Argent.Genesis
open Argent.Fallible Argent.Artifacts Argent.Runtime
open Argent.Sil (Bytes)

/-! ## the preimage -/

/-- an output with its index: index, value, version and script, each of a fixed or a written length -/
def outputPreimage (output : UInt32 × TransactionOutput) : Bytes :=
  littleEndian 4 output.1.toNat ++ littleEndian 8 output.2.value.toNat ++
    littleEndian 2 output.2.scriptPublicKey.version.toNat ++
    counted 8 (fun byte => [byte]) output.2.scriptPublicKey.script

/-- what `covenant_id` hashes -/
def covenantIdPreimage (outpoint : TransactionOutpoint)
    (outputs : List (UInt32 × TransactionOutput)) : Bytes :=
  outpoint.transactionId.bytes ++ littleEndian 4 outpoint.index.toNat ++
    counted 8 outputPreimage outputs

/-- an output before it is bound to a covenant, with a script that fits in memory -/
def Unbound (output : UInt32 × TransactionOutput) : Prop :=
  output.2.covenant = none ∧ output.2.scriptPublicKey.script.length < 256 ^ 8

theorem delimited_outputPreimage : Delimited {o | Unbound o} outputPreimage := by
  rintro ⟨index, value, ⟨version, script⟩, covenant⟩ ⟨hcovenant, hscript⟩
    ⟨index', value', ⟨version', script'⟩, covenant'⟩ ⟨hcovenant', hscript'⟩ r s heq
  have hbytes : Delimited (Set.univ : Set UInt8) fun byte => [byte] :=
    .of_length (fun _ _ => rfl) fun a _ b _ h => List.singleton_inj.mp h
  simp only [outputPreimage, List.append_assoc] at heq
  obtain ⟨hindex, heq₁⟩ :=
    delimited_littleEndian 4 _ index.toNat_lt _ index'.toNat_lt _ _ heq
  obtain ⟨hvalue, heq₂⟩ :=
    delimited_littleEndian 8 _ value.toNat_lt _ value'.toNat_lt _ _ heq₁
  obtain ⟨hversion, heq₃⟩ :=
    delimited_littleEndian 2 _ version.toNat_lt _ version'.toNat_lt _ _ heq₂
  obtain ⟨rfl, hrest⟩ := delimited_counted hbytes 8 script ⟨hscript, fun _ _ => trivial⟩ script'
    ⟨hscript', fun _ _ => trivial⟩ _ _ heq₃
  obtain rfl := UInt32.toNat_inj.mp hindex
  obtain rfl := UInt64.toNat_inj.mp hvalue
  obtain rfl := UInt16.toNat_inj.mp hversion
  obtain rfl : covenant = none := hcovenant
  obtain rfl : covenant' = none := hcovenant'
  exact ⟨rfl, hrest⟩

/-- outpoint and outputs are read off the preimage -/
theorem covenantIdPreimage_inj {outpoint outpoint' : TransactionOutpoint}
    {outputs outputs' : List (UInt32 × TransactionOutput)}
    (hlength : outputs.length < 256 ^ 8) (hlength' : outputs'.length < 256 ^ 8)
    (hunbound : ∀ o ∈ outputs, Unbound o) (hunbound' : ∀ o ∈ outputs', Unbound o)
    (h : covenantIdPreimage outpoint outputs = covenantIdPreimage outpoint' outputs') :
    outpoint = outpoint' ∧ outputs = outputs' := by
  unfold covenantIdPreimage at h
  rw [List.append_assoc, List.append_assoc] at h
  obtain ⟨hid, h₁⟩ := List.append_inj h
    (outpoint.transactionId.length_bytes.trans outpoint'.transactionId.length_bytes.symm)
  obtain ⟨hindex, h₂⟩ :=
    delimited_littleEndian 4 _ outpoint.index.toNat_lt _ outpoint'.index.toNat_lt _ _ h₁
  have hcounted := delimited_counted delimited_outputPreimage 8
  have houtputs := hcounted.injOn ⟨hlength, hunbound⟩ ⟨hlength', hunbound'⟩ h₂
  obtain ⟨id, index⟩ := outpoint
  obtain ⟨id', index'⟩ := outpoint'
  obtain rfl := Digest.ext_bytes hid
  obtain rfl := UInt32.toNat_inj.mp hindex
  exact ⟨rfl, houtputs⟩

theorem length_lt_of_isChain {outputs : List IndexedGenesisOutput}
    (h : outputs.IsChain IndexBefore) : outputs.length < 256 ^ 8 := by
  have hpairwise : (outputs.map fun o => o.index.toNat).Pairwise (· < ·) := by
    rw [List.pairwise_map]
    have htrans : IsTrans IndexedGenesisOutput IndexBefore :=
      ⟨fun _ _ _ hab hbc => UInt32.lt_trans hab hbc⟩
    exact (List.isChain_iff_pairwise.mp h).imp fun hlt => UInt32.lt_iff_toNat_lt.mp hlt
  have hnodup : (outputs.map fun o => o.index.toNat).Nodup := hpairwise.imp fun hlt => Nat.ne_of_lt hlt
  have hrange : (outputs.map fun o => o.index.toNat) ⊆ List.range (2 ^ 32) := by
    intro n hn
    obtain ⟨o, _, rfl⟩ := List.mem_map.mp hn
    exact List.mem_range.mpr o.index.toNat_lt
  have hle := (hnodup.subperm hrange).length_le
  rw [List.length_map, List.length_range] at hle
  omega

/-! ## scripts -/

section
variable {crates : RuntimeCrates} (bundle : ArtifactBundle crates.toCrates)

/-- the physical state of an output as it stands in the code of its actor's contract -/
def EncodedState (output : ArgentGenesisOutput) (encoded : Bytes) : Prop :=
  ∃ contractRef values, contractRefInArtifact bundle.primary output.actor = .ok contractRef ∧
    runtimeStateValues crates contractRef.artifact contractRef.name contractRef.contract
      output.authoredState = .ok values ∧
    crates.encodeRuntimeStateScript bundle.primary.silAbi contractRef.contract.runtimeState values =
      .ok encoded

/-- the code of an output's contract with its state -/
def RedeemScript (output : ArgentGenesisOutput) (script : Bytes) : Prop :=
  ∃ contractRef, contractRefInArtifact bundle.primary output.actor = .ok contractRef ∧
    redeemScriptForContract crates contractRef output.authoredState = .ok script

/-- the output that the covenant id commits to for an authored one -/
structure PaysTo (output : ArgentGenesisOutput) (indexed : IndexedGenesisOutput) : Prop where
  index_eq : indexed.index = output.index
  value_eq : indexed.value = output.value
  script : ∃ script, RedeemScript bundle output script ∧
    indexed.scriptPublicKey = crates.payToScriptHash script

/-- the bytes that the id of a proof is hashed from -/
def ArgentGenesisProof.Preimage (proof : ArgentGenesisProof) (preimage : Bytes) : Prop :=
  ∃ indexed, List.Forall₂ (PaysTo bundle) proof.outputs indexed ∧
    preimage = covenantIdPreimage proof.authorizingOutpoint
      (indexed.map fun output => (output.index, output.transactionOutput))

/-- index, value, actor and encoded state of two outputs are the same -/
structure SameOutput (first second : ArgentGenesisOutput) : Prop where
  index_eq : first.index = second.index
  value_eq : first.value = second.value
  actor_eq : first.actor = second.actor
  state_eq : ∃ encoded, EncodedState bundle first encoded ∧ EncodedState bundle second encoded

variable {bundle}

theorem contractRefInArtifact_ok {artifact : Artifact} {name : String} {contractRef : ContractRef}
    (h : contractRefInArtifact artifact name = .ok contractRef) :
    artifact.silAbi.contract name = some contractRef.contract ∧
      contractRef = ⟨artifact, name, contractRef.contract⟩ := by
  obtain ⟨contract, hcontract, h⟩ := bind_eq_ok.mp h
  obtain rfl := pure_eq_ok.mp h
  exact ⟨okOr_eq_ok.mp hcontract, rfl⟩

theorem paysTo_of_materialized {builder : TxBuilder crates} {output : ArgentGenesisOutput}
    {silOutput : SilGenesisOutput} {indexed : IndexedGenesisOutput}
    (hsil : materializeActor builder output = .ok silOutput)
    (hindexed : materializeOutput crates [builder.bundle.primary.silAbi] silOutput = .ok indexed) :
    PaysTo builder.bundle output indexed := by
  obtain ⟨values, hvalues, hsil⟩ := bind_eq_ok.mp hsil
  obtain rfl := pure_eq_ok.mp hsil
  obtain ⟨contractRef, hcontract, hvalues⟩ := bind_eq_ok.mp (mapFault_eq_ok.mp hvalues)
  obtain ⟨abi, habi, hindexed⟩ := bind_eq_ok.mp hindexed
  obtain rfl : builder.bundle.primary.silAbi = abi := Option.some.inj (okOr_eq_ok.mp habi)
  obtain ⟨contract, hlookup, hindexed⟩ := bind_eq_ok.mp hindexed
  obtain ⟨script, hscript, hindexed⟩ := bind_eq_ok.mp hindexed
  obtain rfl := pure_eq_ok.mp hindexed
  obtain ⟨hfound, href⟩ := contractRefInArtifact_ok hcontract
  obtain rfl := Option.some.inj (hfound.symm.trans (okOr_eq_ok.mp hlookup))
  refine ⟨rfl, rfl, script, ⟨contractRef, hcontract, ?_⟩, rfl⟩
  refine bind_eq_ok.mpr ⟨values, hvalues, mapFault_eq_ok.mpr ?_⟩
  rw [href]
  exact mapFault_eq_ok.mp hscript

theorem verify_ok {proof : ArgentGenesisProof} {expected : Digest}
    (h : proof.verify bundle expected = .ok ⟨⟩) :
    ∃ indexed, List.Forall₂ (PaysTo bundle) proof.outputs indexed ∧
      indexed.IsChain IndexBefore ∧ crates.covenantId proof.authorizingOutpoint
        (indexed.map fun output => (output.index, output.transactionOutput)) = expected := by
  obtain ⟨silProof, hsilProof, h⟩ := bind_eq_ok.mp h
  obtain ⟨silOutputs, hsil, hsilProof⟩ := bind_eq_ok.mp hsilProof
  obtain rfl := pure_eq_ok.mp hsilProof
  obtain ⟨builder, hbuilder, houtputs⟩ := bind_eq_ok.mp hsil
  obtain rfl := TxBuilder.fromBundle_ok (mapFault_eq_ok.mp hbuilder)
  obtain ⟨preimage, hpreimage, h⟩ := bind_eq_ok.mp (mapFault_eq_ok.mp h)
  obtain ⟨_, hpreimage⟩ := check_eq_ok.mp hpreimage
  obtain ⟨indexed, hindexed, hpreimage⟩ := bind_eq_ok.mp hpreimage
  obtain rfl := pure_eq_ok.mp hpreimage
  obtain ⟨_, hid⟩ := ConsensusGenesisProof.verify_iff.mp (orFail_eq_ok.mp h)
  obtain ⟨⟨_, hchain⟩, hid⟩ := computeCovenantId_eq_ok.mp hid
  refine ⟨indexed, ?_, hchain, hid⟩
  exact forall₂_beside (mapM_ok houtputs).flip (mapM_ok hindexed) fun _ _ _ _ houtput hscript =>
    paysTo_of_materialized houtput hscript

/-! ## one output -/

/-- an actor of the app, its contract and its encoded state make up a script -/
structure ScriptOf (bundle : ArtifactBundle crates.toCrates) (output : ArgentGenesisOutput)
    (actor : ActorArtifact) (contract : SilContractArtifact) (encoded script : Bytes) : Prop where
  actor_eq : bundle.primary.actorNamed output.actor = some actor
  contract_eq : bundle.primary.silAbi.contract output.actor = some contract
  encoded_eq : ∃ values, crates.encodeRuntimeStateScript bundle.primary.silAbi
    contract.runtimeState values = .ok encoded
  encodes : EncodedState bundle output encoded
  script_eq : script = contract.compiled.frame.fill encoded

theorem exists_scriptOf (hsplit : crates.SplitsScripts) {output : ArgentGenesisOutput}
    {script : Bytes} (h : RedeemScript bundle output script) :
    ∃ actor contract encoded, ScriptOf bundle output actor contract encoded script := by
  obtain ⟨contractRef, hcontract, hscript⟩ := h
  obtain ⟨hlookup, href⟩ := contractRefInArtifact_ok hcontract
  obtain ⟨values, hvalues, hscript⟩ := bind_eq_ok.mp hscript
  obtain ⟨encoded, hencoded, hscript⟩ := bind_eq_ok.mp (mapFault_eq_ok.mp hscript)
  obtain ⟨⟨leading, state, trailing⟩, hparts, hscript⟩ := bind_eq_ok.mp hscript
  obtain rfl := pure_eq_ok.mp hscript
  obtain ⟨actorRef, hactor, _⟩ := bind_eq_ok.mp hvalues
  obtain ⟨actor, hactor, _⟩ := bind_eq_ok.mp hactor
  have hencoded' : crates.encodeRuntimeStateScript bundle.primary.silAbi
      contractRef.contract.runtimeState values = .ok encoded := by
    rw [href] at hencoded
    exact orFail_eq_ok.mp hencoded
  refine ⟨actor, contractRef.contract, encoded, ?_, hlookup, ⟨values, hencoded'⟩,
    ⟨contractRef, values, hcontract, hvalues, hencoded'⟩, ?_⟩
  · rw [href] at hactor
    exact okOr_eq_ok.mp hactor
  · rw [hsplit.frame_eq (expect_eq_ok.mp hparts)]
    rfl

/-- every actor uses the contract of its own name -/
def OwnContracts (artifact : Artifact) : Prop :=
  ∀ actor ∈ artifact.argent.actors, actor.abi.contract = actor.name

instance (artifact : Artifact) : Decidable (OwnContracts artifact) :=
  inferInstanceAs (Decidable (∀ actor ∈ artifact.argent.actors, actor.abi.contract = actor.name))

variable (crates) in
/-- the encoded state of every contract has the width of its declared state span -/
def ExactSpans (artifact : Artifact) : Prop :=
  ∀ name contract values encoded, artifact.silAbi.contract name = some contract →
    crates.encodeRuntimeStateScript artifact.silAbi contract.runtimeState values = .ok encoded →
    encoded.length = contract.compiled.stateSpan.len

/-- a script tells its actor, and with it the encoded state -/
theorem same_of_script (hspans : ExactSpans crates bundle.primary)
    (habi : OwnContracts bundle.primary) {first second : ArgentGenesisOutput}
    {actor actor' : ActorArtifact} {contract contract' : SilContractArtifact}
    {encoded encoded' script : Bytes} (h : ScriptOf bundle first actor contract encoded script)
    (h' : ScriptOf bundle second actor' contract' encoded' script) :
    first.actor = second.actor ∧ encoded = encoded' := by
  have hname : ∀ {name : String} {a : ActorArtifact}, bundle.primary.actorNamed name = some a →
      a ∈ bundle.primary.argent.actors ∧ a.name = name := by
    intro name a ha
    have hfound := List.find?_some ha
    exact ⟨List.mem_of_find?_eq_some ha, beq_iff_eq.mp hfound⟩
  obtain ⟨hmem, hactor⟩ := hname h.actor_eq
  obtain ⟨hmem', hactor'⟩ := hname h'.actor_eq
  have haccepts : contract.compiled.frame.Accepts script := by
    obtain ⟨values, hvalues⟩ := h.encoded_eq
    exact ⟨encoded, hspans _ _ _ _ h.contract_eq hvalues, h.script_eq⟩
  have haccepts' : contract'.compiled.frame.Accepts script := by
    obtain ⟨values, hvalues⟩ := h'.encoded_eq
    exact ⟨encoded', hspans _ _ _ _ h'.contract_eq hvalues, h'.script_eq⟩
  have hsame : first.actor = second.actor := by
    by_contra hne
    have hframes := (checkConsistency_ok (bundle.attached _ _ bundle.primary_eq).consistent).frames
    have hsymm : Std.Symm (ScriptsDisjoint bundle.primary) := ⟨fun _ _ hab => hab.symm⟩
    have hdisjoint : ScriptsDisjoint bundle.primary actor actor' := by
      refine (verifyTemplateFrames_pairwise hframes).forall hmem hmem' fun heq => hne ?_
      rw [← hactor, ← hactor', heq]
    refine hdisjoint contract contract' ?_ ?_ script ⟨haccepts, haccepts'⟩
    · rw [habi actor hmem, hactor]
      exact h.contract_eq
    · rw [habi actor' hmem', hactor']
      exact h'.contract_eq
  refine ⟨hsame, ?_⟩
  have hcontract : contract = contract' := by
    have hlookup := h'.contract_eq
    rw [← hsame, h.contract_eq] at hlookup
    exact Option.some.inj hlookup
  have hfill := h.script_eq.symm.trans h'.script_eq
  rw [hcontract] at hfill
  exact List.append_cancel_left (List.append_cancel_right hfill)

/-! ## the group -/

/-- **If two genesis proofs verify against one covenant id, then they have the same authorizing
outpoint, and output by output the same index, value, actor and encoded state.**  The covenant id is
the hash of its preimage, and neither it nor the hash of a script collides on what is hashed of the
two proofs. -/
theorem ArgentGenesisProof.verify_binds (crates : RuntimeCrates)
    (bundle : ArtifactBundle crates.toCrates) (hash : Bytes → Digest)
    (hlayout : ∀ outpoint outputs,
      crates.covenantId outpoint outputs = hash (covenantIdPreimage outpoint outputs))
    (hlength : ∀ script, (crates.payToScriptHash script).script.length < 2 ^ 64)
    (hsplit : crates.SplitsScripts) (hspans : ExactSpans crates bundle.primary)
    (habi : OwnContracts bundle.primary) (expected : Digest) (first second : ArgentGenesisProof)
    (hhash : ∀ a b, first.Preimage bundle a → second.Preimage bundle b → hash a = hash b → a = b)
    (hscript : ∀ output ∈ first.outputs, ∀ output' ∈ second.outputs, ∀ a b,
      RedeemScript bundle output a → RedeemScript bundle output' b →
        crates.payToScriptHash a = crates.payToScriptHash b → a = b)
    (hfirst : first.verify bundle expected = .ok ⟨⟩)
    (hsecond : second.verify bundle expected = .ok ⟨⟩) :
    first.authorizingOutpoint = second.authorizingOutpoint ∧
      List.Forall₂ (SameOutput bundle) first.outputs second.outputs := by
  obtain ⟨indexed, hpays, hchain, hid⟩ := verify_ok hfirst
  obtain ⟨indexed', hpays', hchain', hid'⟩ := verify_ok hsecond
  have hpreimage : covenantIdPreimage first.authorizingOutpoint
      (indexed.map fun output => (output.index, output.transactionOutput)) =
      covenantIdPreimage second.authorizingOutpoint
        (indexed'.map fun output => (output.index, output.transactionOutput)) := by
    refine hhash _ _ ⟨indexed, hpays, rfl⟩ ⟨indexed', hpays', rfl⟩ ?_
    rw [← hlayout, ← hlayout, hid, hid']
  have hunbound : ∀ {outputs : List ArgentGenesisOutput} {indexed : List IndexedGenesisOutput},
      List.Forall₂ (PaysTo bundle) outputs indexed →
      ∀ o ∈ indexed.map fun output => (output.index, output.transactionOutput), Unbound o := by
    intro outputs indexed hpays o ho
    obtain ⟨output, houtput, rfl⟩ := List.mem_map.mp ho
    obtain ⟨authored, _, hpaysTo⟩ := mem_of_forall₂_left hpays.flip houtput
    obtain ⟨script, _, hspk⟩ := PaysTo.script hpaysTo
    refine ⟨rfl, ?_⟩
    show output.scriptPublicKey.script.length < 2 ^ 64
    rw [hspk]
    exact hlength script
  have hcount : ∀ {indexed : List IndexedGenesisOutput}, indexed.IsChain IndexBefore →
      (indexed.map fun output => (output.index, output.transactionOutput)).length < 256 ^ 8 := by
    intro indexed hchain
    rw [List.length_map]
    exact length_lt_of_isChain hchain
  obtain ⟨houtpoint, houtputs⟩ := covenantIdPreimage_inj (hcount hchain) (hcount hchain')
    (hunbound hpays) (hunbound hpays') hpreimage
  have hindexed : indexed = indexed' := by
    refine List.map_injective_iff.mpr (fun a b hab => ?_) houtputs
    obtain ⟨hindex, houtput⟩ := Prod.mk.inj hab
    obtain ⟨hvalue, hscript, _⟩ := TransactionOutput.mk.inj houtput
    cases a
    cases b
    simp only at hindex hvalue hscript
    rw [hindex, hvalue, hscript]
  refine ⟨houtpoint, ?_⟩
  have hmem := (List.forall₂_and_left first.outputs indexed).mpr ⟨fun _ ho => ho, hpays⟩
  have hmem' := (List.forall₂_and_left second.outputs indexed').mpr ⟨fun _ ho => ho, hpays'⟩
  rw [← hindexed] at hmem'
  refine forall₂_beside hmem.flip hmem'.flip ?_
  rintro o _ output output' ⟨hin, hpay⟩ ⟨hin', hpay'⟩
  obtain ⟨script, hredeem, hspk⟩ := PaysTo.script hpay
  obtain ⟨script', hredeem', hspk'⟩ := PaysTo.script hpay'
  obtain rfl := hscript output hin output' hin' _ _ hredeem hredeem' (hspk.symm.trans hspk')
  obtain ⟨actor, contract, encoded, hof⟩ := exists_scriptOf hsplit hredeem
  obtain ⟨actor', contract', encoded', hof'⟩ := exists_scriptOf hsplit hredeem'
  obtain ⟨hactor, rfl⟩ := same_of_script hspans habi hof hof'
  exact ⟨hpay.index_eq.symm.trans hpay'.index_eq, hpay.value_eq.symm.trans hpay'.value_eq, hactor,
    encoded, hof.encodes, hof'.encodes⟩

end

/-! ## samples -/

section
variable {crates : RuntimeCrates} {bundle : ArtifactBundle crates.toCrates}

theorem RedeemScript.unique {output : ArgentGenesisOutput} {a b : Bytes}
    (h : RedeemScript bundle output a) (h' : RedeemScript bundle output b) : a = b := by
  obtain ⟨contractRef, hcontract, hscript⟩ := h
  obtain ⟨contractRef', hcontract', hscript'⟩ := h'
  obtain rfl := Except.ok.inj (hcontract.symm.trans hcontract')
  exact Except.ok.inj (hscript.symm.trans hscript')

theorem PaysTo.unique {output : ArgentGenesisOutput} {a b : IndexedGenesisOutput}
    (h : PaysTo bundle output a) (h' : PaysTo bundle output b) : a = b := by
  obtain ⟨script, hredeem, hspk⟩ := h.script
  obtain ⟨script', hredeem', hspk'⟩ := h'.script
  obtain rfl := hredeem.unique hredeem'
  have hindex := h.index_eq.trans h'.index_eq.symm
  have hvalue := h.value_eq.trans h'.value_eq.symm
  have hscript := hspk.trans hspk'.symm
  cases a
  cases b
  simp only at hindex hvalue hscript
  rw [hindex, hvalue, hscript]

theorem ArgentGenesisProof.Preimage.unique {first second : ArgentGenesisProof} {a b : Bytes}
    (h : first.Preimage bundle a) (h' : second.Preimage bundle b)
    (houtpoint : first.authorizingOutpoint = second.authorizingOutpoint)
    (houtputs : first.outputs = second.outputs) : a = b := by
  obtain ⟨indexed, hpays, rfl⟩ := h
  obtain ⟨indexed', hpays', rfl⟩ := h'
  rw [← houtputs] at hpays'
  have hsame : indexed = indexed' := List.forall₂_eq_eq_eq ▸
    forall₂_beside hpays hpays' fun _ _ _ _ hpay hpay' => PaysTo.unique hpay hpay'
  rw [houtpoint, hsame]

theorem exactSpans_of_spans {enc : FieldEncoding} (hdesc : enc.Describes crates.toCrates)
    {artifact : Artifact} (hspans : enc.Spans artifact) : ExactSpans crates artifact := by
  intro name contract values encoded hcontract hencoded
  obtain ⟨parts, hparts, rfl⟩ := hdesc _ _ _ _ hencoded
  rw [hspans name contract hcontract]
  exact FieldEncoding.length_of_parts hparts

theorem ArgentCovenantBootstrap.compose_ok {bootstrap : ArgentCovenantBootstrap}
    {proof : ArgentGenesisProof} (h : bootstrap.compose bundle = .ok proof) :
    proof.authorizingOutpoint = bootstrap.authorizingOutpoint ∧
      proof.outputs = bootstrap.outputs := by
  obtain ⟨_, h⟩ := check_eq_ok.mp h
  obtain ⟨_, _, h⟩ := bind_eq_ok.mp h
  obtain ⟨_, _, h⟩ := bind_eq_ok.mp h
  obtain rfl := pure_eq_ok.mp h
  exact ⟨rfl, rfl⟩

end

theorem hashedScript_length (script : Bytes) : (hashedScript script).script.length < 2 ^ 64 := by
  have hhash : ((scriptHashes.lookup script).getD []).length ≤ 32 := by
    unfold scriptHashes
    rw [List.lookup_cons, List.lookup_cons]
    split
    · exact le_rfl
    · split
      · exact le_rfl
      · exact Nat.zero_le _
  unfold hashedScript
  simp only [List.length_append, List.length_cons, List.length_nil]
  omega

/-- the id of the brood, hashed from its preimage -/
def broodHash (preimage : Bytes) : Digest :=
  if preimage = covenantIdPreimage broodOutpoint broodGroup then broodId else default

def broodCrates : RuntimeCrates :=
  { hiveRuntimeCrates with
    covenantId := fun outpoint outputs => broodHash (covenantIdPreimage outpoint outputs) }

def broodBundle : ArtifactBundle broodCrates.toCrates := hiveBundle

/-- a queen of age 7 and a new drone -/
def broodOutputs : List ArgentGenesisOutput :=
  [⟨0, 1000, "Queen", cellState 7⟩, ⟨1, 2000, "Drone", cellState 0⟩]

/-- a published proof of the brood -/
def broodProof : ArgentGenesisProof := ⟨broodOutpoint, broodId, broodOutputs⟩

theorem broodProof_verify : broodProof.verify broodBundle broodId = .ok ⟨⟩ := by
  have hok : (broodProof.verify broodBundle broodId).isOk = true := by decide +kernel
  obtain ⟨_, h⟩ := exists_ok_of_isOk hok
  exact h

/-- the proof that is composed of the brood -/
def composedProof : ArgentGenesisProof :=
  ((⟨hive.app, broodOutpoint, broodOutputs⟩ : ArgentCovenantBootstrap).compose
    broodBundle).toOption.get (by decide +kernel)

theorem composedProof_eq : composedProof.authorizingOutpoint = broodOutpoint ∧
    composedProof.outputs = broodOutputs :=
  ArgentCovenantBootstrap.compose_ok (eq_ok_get _)

theorem composedProof_verify : composedProof.verify broodBundle broodId = .ok ⟨⟩ := by
  have hok : (composedProof.verify broodBundle broodId).isOk = true := by decide +kernel
  obtain ⟨_, h⟩ := exists_ok_of_isOk hok
  exact h

/-- the scripts of the brood are those whose hashes are known -/
theorem brood_redeemScript {output : ArgentGenesisOutput} (hmem : output ∈ broodOutputs)
    {script : Bytes} (h : RedeemScript broodBundle output script) :
    script ∈ scriptHashes.map Prod.fst := by
  have hscripts : ∀ output ∈ broodOutputs,
      ∀ contractRef ∈ (contractRefInArtifact hive output.actor).toOption,
        ∀ script ∈ (redeemScriptForContract broodCrates contractRef output.authoredState).toOption,
          script ∈ scriptHashes.map Prod.fst := by decide +kernel
  obtain ⟨contractRef, hcontract, hscript⟩ := h
  refine hscripts output hmem contractRef ?_ script ?_
  · show (contractRefInArtifact broodBundle.primary output.actor).toOption = some contractRef
    rw [hcontract]
    rfl
  · show (redeemScriptForContract broodCrates contractRef output.authoredState).toOption = some script
    rw [hscript]
    rfl

theorem hashedScript_injOn : ∀ a ∈ scriptHashes.map Prod.fst, ∀ b ∈ scriptHashes.map Prod.fst,
    hashedScript a = hashedScript b → a = b := by
  decide

/-- the brood as it is published and as it is composed -/
theorem verify_binds_brood :
    broodProof.authorizingOutpoint = composedProof.authorizingOutpoint ∧
      List.Forall₂ (SameOutput broodBundle) broodProof.outputs composedProof.outputs := by
  obtain ⟨houtpoint, houtputs⟩ := composedProof_eq
  refine ArgentGenesisProof.verify_binds broodCrates broodBundle broodHash (fun _ _ => rfl)
    hashedScript_length (pushCrates_splitsScripts _ _)
    (exactSpans_of_spans (pushCrates_describes _ _) hive_spans) (by decide) broodId broodProof
    composedProof (fun a b ha hb _ => ?_) (fun output hin output' hin' a b ha hb heq => ?_)
    broodProof_verify composedProof_verify
  · exact ha.unique hb houtpoint.symm houtputs.symm
  · rw [houtputs] at hin'
    exact hashedScript_injOn a (brood_redeemScript hin ha) b (brood_redeemScript hin' hb) heq

/-! ## actors with the contracts of others -/

/-- pays to the hash of a guest's script -/
def guestScript (script : Bytes) : ScriptPublicKey :=
  ⟨0, [170, 32] ++ (if script = [7] then [135, 62, 79, 233, 228, 30, 146, 73, 17, 187, 163, 236, 83,
    255, 71, 130, 239, 200, 192, 242, 68, 251, 117, 200, 121, 248, 164, 50, 141, 1, 66, 202] else
      List.replicate 32 0) ++ [135]⟩

def guestId : Digest where
  bytes := [102, 34, 164, 32, 228, 162, 98, 173, 131, 92, 95, 61, 193, 237, 103, 98, 88, 26, 135, 152,
    132, 148, 215, 128, 168, 189, 188, 255, 214, 225, 122, 87]
  length_bytes := rfl

/-- the id of a group of one guest, hashed from its preimage -/
def guestGroupHash (preimage : Bytes) : Digest :=
  if preimage = covenantIdPreimage broodOutpoint [(0, ⟨1000, guestScript [7], none⟩)] then guestId
  else default

def guestRuntimeCrates : RuntimeCrates :=
  { guestCrates with
    decodeHex := fun _ => .ok []
    encodeStructPayload := fun _ _ _ _ => .ok []
    payToScriptHash := guestScript
    covenantId := fun outpoint outputs => guestGroupHash (covenantIdPreimage outpoint outputs) }

theorem guests_consistent : guests.checkConsistency guestRuntimeCrates.toCrates = .ok ⟨⟩ := by
  have hok : (guests.checkConsistency guestRuntimeCrates.toCrates).isOk = true := by decide +kernel
  obtain ⟨_, h⟩ := exists_ok_of_isOk hok
  exact h

def guestBundle : ArtifactBundle guestRuntimeCrates.toCrates where
  primaryAlias := "guests"
  apps := (∅ : BTreeMap String Artifact).insert "guests" guests
  primary_mem := by rw [BTreeMap.get_insert_self]; rfl
  attached appAlias artifact h := by
    rw [BTreeMap.get_insert] at h
    split_ifs at h with happ
    · obtain rfl := Option.some.inj h
      exact happ ▸ ⟨by decide +kernel, guests_consistent⟩
    · cases h

/-- one guest without a state -/
def guestProof (actor : String) : ArgentGenesisProof :=
  ⟨broodOutpoint, guestId, [⟨0, 1000, actor, ∅⟩]⟩

theorem guestProof_verify {actor : String} (h : actor ∈ ["Ant", "Bee"]) :
    (guestProof actor).verify guestBundle guestId = .ok ⟨⟩ := by
  have hok : ∀ actor ∈ ["Ant", "Bee"],
      ((guestProof actor).verify guestBundle guestId).isOk = true := by decide +kernel
  obtain ⟨_, h⟩ := exists_ok_of_isOk (hok actor h)
  exact h

theorem guest_redeemScript {actor : String} (hactor : actor ∈ ["Ant", "Bee"]) {script : Bytes}
    (h : RedeemScript guestBundle ⟨0, 1000, actor, ∅⟩ script) : script = [7] := by
  have hcontracts : ∀ actor ∈ ["Ant", "Bee"],
      guests.silAbi.contract actor = some (guestContract 7 guestHash) := by
    intro actor hactor
    simp only [List.mem_cons, List.not_mem_nil, or_false] at hactor
    obtain rfl | rfl := hactor <;> rfl
  have hscripts : ∀ actor ∈ ["Ant", "Bee"], (redeemScriptForContract guestRuntimeCrates
      ⟨guests, actor, guestContract 7 guestHash⟩ ∅).toOption = some [7] := by decide +kernel
  obtain ⟨contractRef, hcontract, hscript⟩ := h
  obtain ⟨hlookup, href⟩ := contractRefInArtifact_ok hcontract
  have hfound := Option.some.inj (hlookup.symm.trans (hcontracts actor hactor))
  rw [href, hfound] at hscript
  have hcomputed := hscripts actor hactor
  rw [show redeemScriptForContract guestRuntimeCrates ⟨guests, actor, guestContract 7 guestHash⟩ ∅ =
    .ok script from hscript] at hcomputed
  exact Option.some.inj hcomputed

theorem guest_indexed {actor : String} (hactor : actor ∈ ["Ant", "Bee"])
    {indexed : List IndexedGenesisOutput}
    (h : List.Forall₂ (PaysTo guestBundle) (guestProof actor).outputs indexed) :
    indexed = [⟨0, 1000, guestScript [7]⟩] := by
  cases h with
  | @cons _ output _ _ hpay hrest =>
    cases hrest
    obtain ⟨script, hredeem, hspk⟩ := hpay.script
    have hindex := hpay.index_eq
    have hvalue := hpay.value_eq
    rw [guest_redeemScript hactor hredeem] at hspk
    cases output
    simp only at hindex hvalue hspk
    rw [hindex, hvalue, hspk]
    rfl

/-- the bundle is consistent, and a group of one ant is a group of one bee -/
theorem verify_ambiguous :
    (∀ outpoint outputs, guestRuntimeCrates.covenantId outpoint outputs =
      guestGroupHash (covenantIdPreimage outpoint outputs)) ∧
    (∀ script, (guestRuntimeCrates.payToScriptHash script).script.length < 2 ^ 64) ∧
    guestRuntimeCrates.SplitsScripts ∧ ExactSpans guestRuntimeCrates guestBundle.primary ∧
    (∀ a b, (guestProof "Ant").Preimage guestBundle a → (guestProof "Bee").Preimage guestBundle b →
      a = b) ∧
    (∀ a b, RedeemScript guestBundle ⟨0, 1000, "Ant", ∅⟩ a →
      RedeemScript guestBundle ⟨0, 1000, "Bee", ∅⟩ b → a = b) ∧
    (guestProof "Ant").verify guestBundle guestId = .ok ⟨⟩ ∧
    (guestProof "Bee").verify guestBundle guestId = .ok ⟨⟩ ∧
    ¬ List.Forall₂ (SameOutput guestBundle) (guestProof "Ant").outputs
      (guestProof "Bee").outputs := by
  have hant : "Ant" ∈ ["Ant", "Bee"] := by decide
  have hbee : "Bee" ∈ ["Ant", "Bee"] := by decide
  refine ⟨fun _ _ => rfl, fun script => ?_, pushCrates_splitsScripts _ _,
    exactSpans_of_spans (pushCrates_describes _ _) guests_spans, fun a b ha hb => ?_,
    fun a b ha hb => ?_, guestProof_verify hant, guestProof_verify hbee, fun h => ?_⟩
  · show (guestScript script).script.length < 2 ^ 64
    unfold guestScript
    split_ifs <;> decide
  · obtain ⟨indexed, hpays, rfl⟩ := ha
    obtain ⟨indexed', hpays', rfl⟩ := hb
    rw [guest_indexed hant hpays, guest_indexed hbee hpays']
    rfl
  · rw [guest_redeemScript hant ha, guest_redeemScript hbee hb]
  · cases h with
    | cons hsame _ => exact absurd hsame.actor_eq (by decide)

end Argent.Genesis
