import Argent.Artifacts.Consistency
import Argent.Base.Panics

/-!
# Operations of the artifact check that can panic

The leaf functions of the check once more, with every `expect`, index, slice and subtraction of the
source in its place.

* `Sites.encodeHex`, `Sites.decodeHashHex`      text and hashes;
* `Sites.verifyRouteTemplateProof`      the Merkle tree of a table and the check of its proof;
* `Sites.verifyTemplateFrames`, `Sites.verifySourceParam`      frames and spawn parameters;
* `Sites.verifyRouteTemplateProof_eq`      **none of them panics in the check of a proof**, and the
                              same for the others.
-/

set_option linter.unusedSectionVars false

namespace Argent.Artifacts.Sites
open Argent.Fallible Argent.Sil

/-- `faster_hex::hex_encode` of some bytes into a buffer of this size -/
abbrev WriteHex := Bytes → Nat → Option Bytes

/-- a buffer of exactly twice the size takes the text -/
def WritesHex (hashes : Hashes) (writeHex : WriteHex) : Prop :=
  ∀ bytes, writeHex bytes (bytes.length * 2) = some (hashes.hexEncode bytes).toUTF8.data.toList

/-! ## hashes as text -/

def encodeHex {ε : Type} (writeHex : WriteHex) (bytes : Bytes) : Except (Fault ε) String := do
  let out ← expect (writeHex bytes (bytes.length * 2)) "hex output buffer has exact length"
  expect (String.fromUTF8? ⟨out.toArray⟩) "faster-hex emits ASCII"

/-- `<[u8; 32]>::try_from` -/
def digestOfBytes (bytes : Bytes) : Option Digest :=
  if h : bytes.length = 32 then some ⟨bytes, h⟩ else none

def decodeHashHex (hashes : Hashes) (id hex : String) : PlanCheck Digest := do
  let bytes ← orFail (TemplatePlanError.invalidHex id) (hashes.hexDecode hex)
  rejectIf (bytes.length ≠ 32) (.error (.invalidHex id
    ("expected 32-byte hash, found " ++ toString bytes.length ++ " bytes")))
  expect (digestOfBytes bytes) "checked hash byte length"

theorem fromUTF8?_toUTF8 (s : String) : String.fromUTF8? s.toUTF8 = some s :=
  dif_pos s.isValidUTF8

theorem encodeHex_eq {ε : Type} {hashes : Hashes} {writeHex : WriteHex}
    (hhex : WritesHex hashes writeHex) (bytes : Bytes) :
    (encodeHex writeHex bytes : Except (Fault ε) String) = .ok (hashes.hexEncode bytes) := by
  unfold encodeHex
  rw [hhex]
  show expect (String.fromUTF8? (hashes.hexEncode bytes).toUTF8) _ = _
  rw [fromUTF8?_toUTF8]
  rfl

theorem decodeHashHex_eq (hashes : Hashes) (id hex : String) :
    decodeHashHex hashes id hex = orFail (fun e => e) (Artifacts.decodeHashHex hashes id hex) := by
  unfold decodeHashHex Artifacts.decodeHashHex
  cases hashes.hexDecode hex with
  | error message => rfl
  | ok bytes =>
    show (rejectIf (bytes.length ≠ 32) _ >>= fun _ => _) = orFail _ (dite _ _ _)
    by_cases hlen : bytes.length = 32
    · rw [dif_pos hlen]
      unfold rejectIf digestOfBytes
      rw [if_neg (not_not.mpr hlen), dif_pos hlen]
      rfl
    · rw [dif_neg hlen]
      unfold rejectIf
      rw [if_pos hlen]
      rfl

/-! ## the Merkle tree of a table -/

/-- `items.chunks(2)` -/
def chunksOfTwo {α : Type} : List α → List (List α)
  | [] => []
  | [a] => [[a]]
  | a :: b :: rest => [a, b] :: chunksOfTwo rest

/-- the parent of a chunk; the right node is the left one again where it is missing -/
def parentOfChunk (hashes : Hashes) (pair : List Digest) : PlanCheck Digest := do
  let left ← indexAt pair 0
  let right := pair[1]?.getD left
  pure (routeTemplateMerkleParent hashes left right)

/-- the loop over the last layer; a layer is shorter than the one below it, so that the number of
leaves is enough rounds -/
def growLayers (hashes : Hashes) : Nat → List (List Digest) → PlanCheck (List (List Digest))
  | 0, _ => .error (.panic "the last layer has more than one node")
  | fuel + 1, layers => do
    let current ← expect layers.getLast? "layers is non-empty"
    if 1 < current.length then
      let next ← (chunksOfTwo current).mapM (parentOfChunk hashes)
      growLayers hashes fuel (layers ++ [next])
    else pure layers

def routeTemplateMerkleLayers (hashes : Hashes) (leaves : List Digest) :
    PlanCheck (List (List Digest)) :=
  if leaves.isEmpty then pure [] else growLayers hashes leaves.length [leaves]

def routeTemplateMerkleRootHex (hashes : Hashes) (writeHex : WriteHex)
    (layers : List (List Digest)) : PlanCheck String :=
  match layers.getLast?.bind List.head? with
  | some hash => encodeHex writeHex hash.bytes
  | none => encodeHex writeHex (hashes.blake3 []).bytes

def siblingIndex (width index : Nat) : PlanCheck Nat :=
  if index % 2 == 0 then do
    let last ← subtract width 1
    pure (min (index + 1) last)
  else subtract index 1

def climb (writeHex : WriteHex) :
    List (List Digest) → Nat → PlanCheck (List RouteTemplateProofStepArtifact)
  | [], _ => pure []
  | layer :: rest, index => do
    let sibling ← siblingIndex layer.length index
    let hash ← indexAt layer sibling
    let hashHex ← encodeHex writeHex hash.bytes
    let steps ← climb writeHex rest (index / 2)
    pure ({ side := if index % 2 == 0 then .right else .left, hashHex := hashHex } :: steps)

/-- `layers.len().saturating_sub(1)` layers have a sibling in the proof -/
def routeTemplateMerkleProof (writeHex : WriteHex) (layers : List (List Digest)) (index : Nat) :
    PlanCheck (List RouteTemplateProofStepArtifact) :=
  climb writeHex (layers.take (layers.length - 1)) index

def routeTemplateMerkleProofRoot (hashes : Hashes) (id leafHashHex : String)
    (proof : List RouteTemplateProofStepArtifact) : PlanCheck Digest := do
  let resolved ← decodeHashHex hashes id leafHashHex
  proof.foldlM (fun resolved step => do
    let sibling ← decodeHashHex hashes id step.hashHex
    match step.side with
    | .left => pure (routeTemplateMerkleParent hashes sibling resolved)
    | .right => pure (routeTemplateMerkleParent hashes resolved sibling)) resolved

theorem mapM_parentOfChunk (hashes : Hashes) (layer : List Digest) :
    (chunksOfTwo layer).mapM (parentOfChunk hashes) =
      .ok (Merkle.pairUp (routeTemplateMerkleParent hashes) layer) := by
  induction layer using chunksOfTwo.induct with
  | case1 => rfl
  | case2 a => rfl
  | case3 a b rest ih =>
    rw [chunksOfTwo, List.mapM_cons, ih]
    rfl

theorem growLayers_eq (hashes : Hashes) {fuel : Nat} (below : List (List Digest))
    {current : List Digest} (hne : current ≠ []) (hfuel : current.length ≤ fuel) :
    growLayers hashes fuel (below ++ [current]) =
      .ok (below ++ Merkle.layers (routeTemplateMerkleParent hashes) current) := by
  have hpos : 0 < current.length := List.length_pos_of_ne_nil hne
  induction fuel generalizing below current with
  | zero => omega
  | succ fuel ih =>
    rw [growLayers, List.getLast?_concat]
    show (if 1 < current.length then _ else _) = _
    by_cases hlt : 1 < current.length
    · have hup := Merkle.length_pairUp (routeTemplateMerkleParent hashes) current
      have hpos' : 0 < (Merkle.pairUp (routeTemplateMerkleParent hashes) current).length := by omega
      rw [if_pos hlt, mapM_parentOfChunk, Merkle.layers_of_lt _ hlt]
      show growLayers hashes fuel (below ++ [current] ++ [_]) = _
      rw [ih _ (List.ne_nil_of_length_pos hpos') (by omega) hpos', List.append_assoc]
      rfl
    · rw [if_neg hlt, Merkle.layers_of_le _ hlt]
      rfl

theorem routeTemplateMerkleLayers_eq (hashes : Hashes) (leaves : List Digest) :
    routeTemplateMerkleLayers hashes leaves =
      .ok (Artifacts.routeTemplateMerkleLayers hashes leaves) := by
  unfold routeTemplateMerkleLayers Artifacts.routeTemplateMerkleLayers
  cases leaves with
  | nil => rfl
  | cons leaf rest => exact growLayers_eq hashes [] (List.cons_ne_nil _ _) (Nat.le_refl _)

theorem routeTemplateMerkleRootHex_eq {hashes : Hashes} {writeHex : WriteHex}
    (hhex : WritesHex hashes writeHex) (layers : List (List Digest)) :
    routeTemplateMerkleRootHex hashes writeHex layers =
      .ok (Artifacts.routeTemplateMerkleRootHex hashes layers) := by
  unfold routeTemplateMerkleRootHex Artifacts.routeTemplateMerkleRootHex
  cases layers.getLast?.bind List.head? with
  | none => exact encodeHex_eq hhex _
  | some hash => exact encodeHex_eq hhex _

theorem siblingIndex_eq {width index : Nat} (h : index < width) :
    siblingIndex width index = .ok (Merkle.siblingIndex width index) := by
  unfold siblingIndex Merkle.siblingIndex
  by_cases heven : index % 2 = 0
  · rw [if_pos (beq_iff_eq.mpr heven), if_pos heven, subtract_of_le (by omega)]
    rfl
  · have hodd : ¬ (index % 2 == 0) = true := by rwa [beq_iff_eq]
    rw [if_neg hodd, if_neg heven, subtract_of_le (by omega)]

/-- climbing from a leaf stays inside the layers -/
theorem climb_eq {hashes : Hashes} {writeHex : WriteHex} (hhex : WritesHex hashes writeHex)
    {leaves : List Digest} {index : Nat} (h : index < leaves.length) :
    climb writeHex (Merkle.layers (routeTemplateMerkleParent hashes) leaves).dropLast index =
      .ok ((Merkle.climb (Merkle.layers (routeTemplateMerkleParent hashes) leaves).dropLast
        index).map (proofStep hashes)) := by
  induction hn : leaves.length using Nat.strong_induction_on generalizing leaves index with
  | _ n ih =>
    by_cases hlt : 1 < leaves.length
    · have hup := Merkle.length_pairUp (routeTemplateMerkleParent hashes) leaves
      have hindex : index / 2 < (Merkle.pairUp (routeTemplateMerkleParent hashes) leaves).length := by
        omega
      have hrest := ih _ (by omega) hindex rfl
      have hsibling := Merkle.siblingIndex_lt h
      rw [Merkle.layers_of_lt _ hlt, List.dropLast_cons_of_ne_nil (Merkle.layers_ne_nil _ _),
        climb, Merkle.climb, siblingIndex_eq h, List.map_cons]
      show (indexAt leaves _ >>= _) = _
      rw [indexAt_of_eq (List.getElem?_eq_getElem hsibling)]
      show (encodeHex writeHex _ >>= _) = _
      rw [encodeHex_eq hhex]
      show (climb writeHex _ _ >>= _) = _
      rw [hrest]
      unfold proofStep Merkle.step
      rw [List.getD_eq_getElem _ _ hsibling]
      by_cases heven : index % 2 = 0
      · simp only [heven, beq_self_eq_true, if_true]
        rfl
      · simp only [heven, beq_iff_eq, if_false]
        rfl
    · rw [Merkle.layers_of_le _ hlt]
      rfl

theorem routeTemplateMerkleProof_eq {hashes : Hashes} {writeHex : WriteHex}
    (hhex : WritesHex hashes writeHex) {leaves : List Digest} {index : Nat}
    (h : index < leaves.length) :
    routeTemplateMerkleProof writeHex (Artifacts.routeTemplateMerkleLayers hashes leaves) index =
      .ok (Artifacts.routeTemplateMerkleProof hashes
        (Artifacts.routeTemplateMerkleLayers hashes leaves) index) := by
  have hlayers : Artifacts.routeTemplateMerkleLayers hashes leaves =
      Merkle.layers (routeTemplateMerkleParent hashes) leaves := by
    unfold Artifacts.routeTemplateMerkleLayers
    rw [if_neg]
    intro hempty
    rw [List.isEmpty_iff.mp hempty] at h
    exact absurd h (Nat.not_lt_zero _)
  rw [Artifacts.routeTemplateMerkleProof_eq, hlayers]
  unfold routeTemplateMerkleProof Merkle.path
  rw [← List.dropLast_eq_take, climb_eq hhex h]

theorem routeTemplateMerkleProofRoot_eq (hashes : Hashes) (id leafHashHex : String)
    (proof : List RouteTemplateProofStepArtifact) :
    routeTemplateMerkleProofRoot hashes id leafHashHex proof =
      orFail (fun e => e) (Artifacts.routeTemplateMerkleProofRoot hashes id leafHashHex proof) := by
  unfold routeTemplateMerkleProofRoot Artifacts.routeTemplateMerkleProofRoot
  rw [orFail_bind, decodeHashHex_eq]
  congr 1
  funext resolved
  rw [orFail_foldlM]
  congr 1
  funext resolved step
  rw [orFail_bind, decodeHashHex_eq]
  congr 1
  funext sibling
  cases step.side with
  | left => rfl
  | right => rfl

/-! ## the check of a proof -/

def routeTemplateLeafHash (hashes : Hashes) (tableId : String) (leaf : RouteTemplateLeafArtifact)
    (templates : TemplateHashLookup) (digestRoots : BTreeMap String String) : PlanCheck Digest :=
  match leaf with
  | .template actor templateId => do
    let template ← okOr (templates.templateHashById templateId)
      (.error (.missingRouteTableTemplate tableId actor templateId))
    rejectIf (template.actor ≠ actor)
      (.error (.routeTableTemplateMismatch tableId actor templateId template.actor))
    pure template.hash
  | .routeFamily familyId proofId => do
    let rootHex ← okOr (digestRoots.get proofId)
      (.error (.routeTableFamilyProofMismatch tableId familyId proofId ""))
    decodeHashHex hashes proofId rootHex

def verifyProofLeaf (hashes : Hashes) (writeHex : WriteHex) (proof : RouteTemplateProofArtifact)
    (expectedLeafHashes : List Digest) (expectedLayers : List (List Digest)) (root : Digest)
    (index : Nat) (leaf : RouteTemplateProofLeafArtifact)
    (entry : RouteTemplateTableEntryArtifact) : PlanCheck PUnit := do
  rejectIf (leaf.index ≠ entry.index ∨ leaf.leaf ≠ entry.leaf)
    (.error (.routeProofTableMismatch proof.id proof.tableId))
  orFail (fun e => e) (rejectRecursiveLeaf proof.id leaf.leaf)
  let expectedHash ← indexAt expectedLeafHashes index
  let expectedHashHex ← encodeHex writeHex expectedHash.bytes
  rejectIf (leaf.hashHex ≠ expectedHashHex)
    (.error (.routeProofLeafHashMismatch proof.id index expectedHashHex leaf.hashHex))
  let mismatch := fun resolved : Digest => do
    let expected ← encodeHex writeHex root.bytes
    let found ← encodeHex writeHex resolved.bytes
    fail (.routeProofMismatch proof.id index expected found)
  let expectedProof ← routeTemplateMerkleProof writeHex expectedLayers index
  if leaf.proof ≠ expectedProof then
    let resolved ← routeTemplateMerkleProofRoot hashes proof.id leaf.hashHex leaf.proof
    mismatch resolved
  else
    let resolved ← routeTemplateMerkleProofRoot hashes proof.id leaf.hashHex leaf.proof
    if resolved ≠ root then mismatch resolved else pure ⟨⟩

def verifyRouteTemplateProof (hashes : Hashes) (writeHex : WriteHex)
    (proof : RouteTemplateProofArtifact) (table : RouteTemplateTableArtifact)
    (templates : TemplateHashLookup)
    (routeProofsById : BTreeMap String RouteTemplateProofArtifact) : PlanCheck PUnit := do
  let expectedId := routeTemplateProofReceiptId table.state table.field
  rejectIf (proof.id ≠ expectedId ∨ proof.tableId ≠ table.id ∨ proof.state ≠ table.state ∨
      proof.field ≠ table.field ∨ proof.leaves.length ≠ table.entries.length)
    (.error (.routeProofTableMismatch proof.id proof.tableId))
  let expectedLeafHashes ← table.entries.mapM fun entry =>
    routeTemplateLeafHash hashes table.id entry.leaf templates (digestRoots routeProofsById)
  let expectedLayers ← routeTemplateMerkleLayers hashes expectedLeafHashes
  let expectedRootHex ← routeTemplateMerkleRootHex hashes writeHex expectedLayers
  rejectIf (proof.rootHex ≠ expectedRootHex)
    (.error (.routeProofRootMismatch proof.id expectedRootHex proof.rootHex))
  let root ← decodeHashHex hashes proof.id proof.rootHex
  (proof.leaves.zip table.entries).zipIdx.forM fun item =>
    verifyProofLeaf hashes writeHex proof expectedLeafHashes expectedLayers root item.2 item.1.1
      item.1.2

theorem routeTemplateLeafHash_eq (hashes : Hashes) (tableId : String)
    (leaf : RouteTemplateLeafArtifact) (templates : TemplateHashLookup)
    (digestRoots : BTreeMap String String) :
    routeTemplateLeafHash hashes tableId leaf templates digestRoots = orFail (fun e => e)
      (Artifacts.routeTemplateLeafHash hashes tableId leaf templates digestRoots) := by
  cases leaf with
  | template actor templateId =>
    unfold routeTemplateLeafHash Artifacts.routeTemplateLeafHash
    dsimp only
    cases templates.templateHashById templateId with
    | none => rfl
    | some template =>
      show (rejectIf _ _ >>= fun _ => _) = orFail _ (rejectIf _ _ >>= fun _ => _)
      rw [orFail_bind, orFail_rejectIf]
      rfl
  | routeFamily familyId proofId =>
    unfold routeTemplateLeafHash Artifacts.routeTemplateLeafHash
    dsimp only
    cases digestRoots.get proofId with
    | none => rfl
    | some rootHex => exact decodeHashHex_eq hashes proofId rootHex

section
variable {hashes : Hashes} {writeHex : WriteHex} (hhex : WritesHex hashes writeHex)
include hhex

theorem verifyProofLeaf_eq (proof : RouteTemplateProofArtifact) (expectedLeafHashes : List Digest)
    (root : Digest) {index : Nat} (h : index < expectedLeafHashes.length)
    (leaf : RouteTemplateProofLeafArtifact) (entry : RouteTemplateTableEntryArtifact) :
    verifyProofLeaf hashes writeHex proof expectedLeafHashes
        (Artifacts.routeTemplateMerkleLayers hashes expectedLeafHashes) root index leaf entry =
      orFail (fun e => e) (Artifacts.verifyProofLeaf hashes proof expectedLeafHashes
        (Artifacts.routeTemplateMerkleLayers hashes expectedLeafHashes) root index leaf entry) := by
  unfold verifyProofLeaf Artifacts.verifyProofLeaf
  rw [orFail_bind, orFail_rejectIf]
  congr 1
  funext _
  rw [orFail_bind]
  congr 1
  funext _
  rw [indexAt_of_eq (List.getElem?_eq_getElem h), List.getD_eq_getElem _ _ h]
  show (encodeHex writeHex _ >>= _) = _
  rw [encodeHex_eq hhex]
  show (rejectIf _ _ >>= fun _ => _) = orFail _ (rejectIf _ _ >>= fun _ => _)
  rw [orFail_bind, orFail_rejectIf]
  congr 1
  funext _
  rw [routeTemplateMerkleProof_eq hhex h]
  show (if _ then _ else _) = orFail _ (if _ then _ else _)
  split_ifs
  · rw [orFail_bind, routeTemplateMerkleProofRoot_eq]
    congr 1
    funext resolved
    show (encodeHex writeHex _ >>= fun _ => encodeHex writeHex _ >>= _) = _
    rw [encodeHex_eq hhex, encodeHex_eq hhex]
    rfl
  · rw [orFail_bind, routeTemplateMerkleProofRoot_eq]
    congr 1
    funext resolved
    rw [orFail_rejectIf]
    unfold rejectIf
    by_cases hroot : resolved ≠ root
    · rw [if_pos hroot, if_pos hroot]
      show (encodeHex writeHex _ >>= fun _ => encodeHex writeHex _ >>= _) = _
      rw [encodeHex_eq hhex, encodeHex_eq hhex]
      rfl
    · rw [if_neg hroot, if_neg hroot]
      rfl

theorem verifyRouteTemplateProof_eq (proof : RouteTemplateProofArtifact)
    (table : RouteTemplateTableArtifact) (templates : TemplateHashLookup)
    (routeProofsById : BTreeMap String RouteTemplateProofArtifact) :
    verifyRouteTemplateProof hashes writeHex proof table templates routeProofsById =
      orFail (fun e => e)
        (Artifacts.verifyRouteTemplateProof hashes proof table templates routeProofsById) := by
  unfold verifyRouteTemplateProof Artifacts.verifyRouteTemplateProof
  dsimp only
  rw [orFail_bind, orFail_rejectIf]
  congr 1
  funext _
  rw [orFail_bind, orFail_mapM]
  simp only [routeTemplateLeafHash_eq]
  refine bind_congr_ok fun expectedLeafHashes hleaves => ?_
  have hlen := (mapM_ok hleaves).length_eq
  rw [routeTemplateMerkleLayers_eq]
  show (routeTemplateMerkleRootHex hashes writeHex _ >>= _) = _
  rw [routeTemplateMerkleRootHex_eq hhex]
  show (rejectIf _ _ >>= fun _ => _) = orFail _ (rejectIf _ _ >>= fun _ => _)
  rw [orFail_bind, orFail_rejectIf]
  congr 1
  funext _
  rw [orFail_bind, decodeHashHex_eq]
  congr 1
  funext root
  rw [orFail_forM]
  refine forM_congr fun item hitem => ?_
  have hitem := List.mem_zipIdx_iff_getElem?.mp hitem
  obtain ⟨hlt, -⟩ := List.getElem?_eq_some_iff.mp hitem
  rw [List.length_zip] at hlt
  exact verifyProofLeaf_eq hhex proof _ root (by omega) _ _

end

/-! ## values that the plan fixes -/

/-- the root of a proof is decoded, the other roles read digests -/
def fixedRuntimeContextValue (hashes : Hashes) (plan : TemplatePlanLookup)
    (runtimeState : RuntimeStatePlanArtifact) (field : RuntimeFieldRolePlanArtifact) :
    PlanCheck Bytes :=
  match field.role with
  | .templateRoot _ => do
    let proofId := routeTemplateProofReceiptId runtimeState.source field.name
    let proof ← okOr (plan.routeProofs.find? fun proof => proof.id == proofId)
      (.error (.runtimeStatePlanMismatch runtimeState.contract ("field `" ++ field.name ++
        "` cannot be fixed as template context: " ++ ("missing route proof `" ++ proofId ++ "`"))))
    let root ← decodeHashHex hashes proofId proof.rootHex
    pure root.bytes
  | _ => orFail (fun e => e) (Artifacts.fixedRuntimeContextValue hashes plan runtimeState field)

theorem fixedRuntimeContextValue_eq (hashes : Hashes) (plan : TemplatePlanLookup)
    (runtimeState : RuntimeStatePlanArtifact) (field : RuntimeFieldRolePlanArtifact) :
    fixedRuntimeContextValue hashes plan runtimeState field = orFail (fun e => e)
      (Artifacts.fixedRuntimeContextValue hashes plan runtimeState field) := by
  unfold fixedRuntimeContextValue
  cases hrole : field.role with
  | template contract => rfl
  | templateTable contracts => rfl
  | templateDigest id => rfl
  | templateRoot leaves =>
    unfold Artifacts.fixedRuntimeContextValue
    rw [hrole]
    dsimp only
    rw [orFail_bind, orFail_okOr]
    congr 1
    funext proof
    rw [orFail_bind, decodeHashHex_eq]
    rfl

/-! ## frames -/

def extractFrame (actor : ActorArtifact) (contract : SilContractArtifact) :
    Except (Fault TemplateFrameVerificationError) ActorFrame := do
  let compiled := contract.compiled
  let offset := compiled.stateSpan.offset
  let stateLen := compiled.stateSpan.len
  let totalLen := compiled.bytecode.length
  let stateEnd ← okOr ((checkedAdd offset stateLen).filter (· ≤ totalLen))
    (.error (.invalidStateSpan actor.name actor.abi.contract offset stateLen totalLen))
  let leading ← headUpTo compiled.bytecode offset
  let trailing ← tailFrom compiled.bytecode stateEnd
  pure
    { actor := actor.name
      leading := leading
      stateLen := stateLen
      trailing := trailing
      totalLen := totalLen }

def actorFrame (artifact : Artifact) (actor : ActorArtifact) :
    Except (Fault TemplateFrameVerificationError) ActorFrame := do
  let contract ← okOr (artifact.silAbi.contract actor.abi.contract)
    (.error (.missingContract actor.name actor.abi.contract))
  extractFrame actor contract

/-- every frame against `&frames[index + 1..]` -/
def verifyFrames (frames : List ActorFrame) :
    Except (Fault TemplateFrameVerificationError) PUnit :=
  frames.zipIdx.forM fun item => do
    let rest ← tailFrom frames (item.2 + 1)
    rest.forM fun second => orFail (fun e => e) (verifyPair item.1 second)

def verifyTemplateFrames (artifact : Artifact) :
    Except (Fault TemplateFrameVerificationError) PUnit := do
  let actors := artifact.argent.actors.insertionSort fun left right => left.name ≤ right.name
  let frames ← actors.mapM (actorFrame artifact)
  verifyFrames frames

theorem extractFrame_eq (actor : ActorArtifact) (contract : SilContractArtifact) :
    extractFrame actor contract =
      orFail (fun e => e) (Artifacts.extractFrame actor contract) := by
  unfold extractFrame Artifacts.extractFrame
  dsimp only
  cases hend : (checkedAdd contract.compiled.stateSpan.offset contract.compiled.stateSpan.len).filter
      (· ≤ contract.compiled.bytecode.length) with
  | none => rfl
  | some stateEnd =>
    obtain ⟨hadd, hle⟩ := Option.filter_eq_some_iff.mp hend
    have hsum := checkedAdd_eq_some hadd
    have hle := of_decide_eq_true hle
    show (headUpTo _ _ >>= fun _ => tailFrom _ _ >>= _) = _
    rw [headUpTo_of_le (by omega), tailFrom_of_le hle]
    rfl

theorem actorFrame_eq (artifact : Artifact) (actor : ActorArtifact) :
    actorFrame artifact actor = orFail (fun e => e) (Artifacts.actorFrame artifact actor) := by
  unfold actorFrame Artifacts.actorFrame
  cases artifact.silAbi.contract actor.abi.contract with
  | none => rfl
  | some contract => exact extractFrame_eq actor contract

theorem verifyFrames_eq (frames : List ActorFrame) :
    verifyFrames frames = orFail (fun e => e) (Artifacts.verifyFrames frames) := by
  suffices hgen : ∀ (rest done : List ActorFrame), done ++ rest = frames →
      (rest.zipIdx done.length).forM (fun item => do
        let later ← tailFrom frames (item.2 + 1)
        later.forM fun second => orFail (fun e => e) (verifyPair item.1 second)) =
      orFail (fun e => e) (Artifacts.verifyFrames rest) from hgen frames [] rfl
  intro rest
  induction rest with
  | nil =>
    intro done _
    rfl
  | cons first rest ih =>
    intro done hdone
    have hlen : done.length + 1 ≤ frames.length := by
      rw [← hdone, List.length_append, List.length_cons]
      omega
    have hdrop : frames.drop (done.length + 1) = rest := by
      rw [← hdone, ← List.drop_drop, List.drop_left]
      rfl
    have hnext := ih (done ++ [first]) (by rw [← hdone, List.append_assoc]; rfl)
    rw [List.length_append, List.length_singleton] at hnext
    rw [List.zipIdx_cons, Artifacts.verifyFrames, orFail_bind, ← hnext, orFail_forM]
    show ((tailFrom frames (done.length + 1) >>= _) >>= _) = _
    rw [tailFrom_of_le hlen, hdrop]
    rfl

theorem verifyTemplateFrames_eq (artifact : Artifact) :
    verifyTemplateFrames artifact =
      orFail (fun e => e) (Artifacts.verifyTemplateFrames artifact) := by
  unfold verifyTemplateFrames Artifacts.verifyTemplateFrames
  dsimp only
  have hframe : actorFrame artifact =
      fun actor => orFail (fun e => e) (Artifacts.actorFrame artifact actor) :=
    funext (actorFrame_eq artifact)
  rw [orFail_bind, orFail_mapM, hframe]
  congr 1
  funext frames
  exact verifyFrames_eq frames

/-! ## spawn parameters -/

/-- `params[0]` is read after the number of parameters is checked -/
def verifySourceParam (entryId : String) (entry : EntryArtifact) (actorExpr spawn handle : String)
    (purpose : HiddenParamPurposeArtifact) : PlanCheck PUnit := do
  let firstSpawnSubject := HiddenParamSubjectArtifact.spawnActor spawn handle actorExpr
  let params := entry.params (isSourceSubject actorExpr) (· == purpose)
  rejectIf (params.length ≠ 1) (.error (invalidSpawnMetadata entryId
    ("spawn actor expression `" ++ actorExpr ++ "` has " ++ toString params.length ++
      " hidden params for " ++ purposeText purpose ++ ", expected one")))
  let param ← indexAt params 0
  rejectIf (param.subject ≠ firstSpawnSubject ∧
      validObservedTemplateProvider entry param.subject actorExpr = false)
    (.error (invalidSpawnMetadata entryId
      ("spawn actor expression `" ++ actorExpr ++ "` " ++ purposeText purpose ++
        " must use an observed output or first spawn output `" ++ spawn ++ "." ++ handle ++
        "` as its subject")))

theorem verifySourceParam_eq (entryId : String) (entry : EntryArtifact)
    (actorExpr spawn handle : String) (purpose : HiddenParamPurposeArtifact) :
    verifySourceParam entryId entry actorExpr spawn handle purpose = orFail (fun e => e)
      (Artifacts.verifySourceParam entryId entry actorExpr spawn handle purpose) := by
  unfold verifySourceParam Artifacts.verifySourceParam
  dsimp only
  cases entry.params (isSourceSubject actorExpr) (· == purpose) with
  | nil => rfl
  | cons param rest =>
    cases rest with
    | nil =>
      rw [orFail_rejectIf]
      rfl
    | cons other rest =>
      have hmany : (param :: other :: rest).length ≠ 1 := by
        rw [List.length_cons, List.length_cons]
        omega
      unfold rejectIf
      rw [if_pos hmany]
      rfl

end Argent.Artifacts.Sites
