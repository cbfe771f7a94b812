import Argent.Artifacts.Artifact
import Argent.Base.Fallible
import Argent.Base.Merkle
import Mathlib.Data.List.GetD

/-!
# Route template proofs

A route table of the template plan is committed by a Merkle tree over its leaves: template hashes,
and the roots of other tables for the leaves that stand for route families.  The builder computes
the proof of a table, the verifier derives leaf hashes, root and paths again.

* `routeTemplateProofFromTable`, `verifyRouteTemplateProof`      builder and verifier;
* `proofRoot_path`      the verifier's replay of a path reaches the root;
* `merkle_root_binds`   the root determines the leaves;
* `verifyRouteTemplateProof_iff`      **the verifier accepts exactly the proof of the builder**, as
                                      long as no leaf of it names the proof itself.
-/

set_option linter.unusedSectionVars false

namespace Argent.Artifacts
open Argent.Fallible Argent.Sil

def routeTemplateTableReceiptId (state field : String) : String :=
  "route_table/" ++ state ++ "/" ++ field

def routeTemplateProofReceiptId (state field : String) : String :=
  "route_proof/" ++ state ++ "/" ++ field

/-! ## hashes as text -/

def decodeHashHex (hashes : Hashes) (id hex : String) : Except TemplatePlanError Digest :=
  match hashes.hexDecode hex with
  | .error message => .error (.invalidHex id message)
  | .ok bytes =>
    if h : bytes.length = 32 then .ok ⟨bytes, h⟩
    else .error (.invalidHex id
      ("expected 32-byte hash, found " ++ toString bytes.length ++ " bytes"))

def encodeDigest (hashes : Hashes) (digest : Digest) : String := hashes.hexEncode digest.bytes

theorem decodeHashHex_encodeDigest {hashes : Hashes} (hround : hashes.RoundTrips) (id : String)
    (digest : Digest) : decodeHashHex hashes id (encodeDigest hashes digest) = .ok digest := by
  unfold decodeHashHex encodeDigest
  rw [hround]
  show (if h : digest.bytes.length = 32 then Except.ok (⟨digest.bytes, h⟩ : Digest) else _) = _
  rw [dif_pos digest.length_bytes]

/-! ## the Merkle tree of a table -/

def routeTemplateMerkleParent (hashes : Hashes) (left right : Digest) : Digest :=
  hashes.blake3 (left.bytes ++ right.bytes)

def routeTemplateMerkleLayers (hashes : Hashes) (leaves : List Digest) : List (List Digest) :=
  if leaves.isEmpty then [] else Merkle.layers (routeTemplateMerkleParent hashes) leaves

def routeTemplateEmptyMerkleRootHex (hashes : Hashes) : String :=
  encodeDigest hashes (hashes.blake3 [])

def routeTemplateMerkleRootHex (hashes : Hashes) (layers : List (List Digest)) : String :=
  match layers.getLast?.bind List.head? with
  | some hash => encodeDigest hashes hash
  | none => routeTemplateEmptyMerkleRootHex hashes

/-- the siblings of a position, in every layer but the last -/
def routeTemplateMerkleProof (hashes : Hashes) (layers : List (List Digest)) (index : Nat) :
    List RouteTemplateProofStepArtifact :=
  let rec climb : List (List Digest) → Nat → List RouteTemplateProofStepArtifact
    | [], _ => []
    | layer :: rest, index =>
      let isLeftChild := index % 2 == 0
      let siblingIndex := if isLeftChild then min (index + 1) (layer.length - 1) else index - 1
      { side := if isLeftChild then .right else .left
        hashHex := encodeDigest hashes (layer.getD siblingIndex default) } ::
        climb rest (index / 2)
  climb (layers.take (layers.length - 1)) index

def routeTemplateMerkleProofRoot (hashes : Hashes) (id leafHashHex : String)
    (proof : List RouteTemplateProofStepArtifact) : Except TemplatePlanError Digest := do
  let resolved ← decodeHashHex hashes id leafHashHex
  proof.foldlM (fun resolved step => do
    let sibling ← decodeHashHex hashes id step.hashHex
    match step.side with
    | .left => pure (routeTemplateMerkleParent hashes sibling resolved)
    | .right => pure (routeTemplateMerkleParent hashes resolved sibling)) resolved

/-! ## builder and verifier -/

def routeTemplateLeafHash (hashes : Hashes) (tableId : String) (leaf : RouteTemplateLeafArtifact)
    (templates : TemplateHashLookup) (digestRoots : BTreeMap String String) :
    Except TemplatePlanError Digest :=
  match leaf with
  | .template actor templateId =>
    match templates.templateHashById templateId with
    | none => .error (.missingRouteTableTemplate tableId actor templateId)
    | some template => do
      rejectIf (template.actor ≠ actor)
        (.routeTableTemplateMismatch tableId actor templateId template.actor)
      pure template.hash
  | .routeFamily familyId proofId =>
    match digestRoots.get proofId with
    | none => .error (.routeTableFamilyProofMismatch tableId familyId proofId "")
    | some rootHex => decodeHashHex hashes proofId rootHex

def proofLeaf (hashes : Hashes) (layers : List (List Digest))
    (entry : RouteTemplateTableEntryArtifact) (templateHash : Digest) (position : Nat) :
    RouteTemplateProofLeafArtifact where
  index := entry.index
  leaf := entry.leaf
  hashHex := encodeDigest hashes templateHash
  proof := routeTemplateMerkleProof hashes layers position

def routeTemplateProofFromTable (hashes : Hashes) (table : RouteTemplateTableArtifact)
    (templates : TemplateHashLookup) (digestRoots : BTreeMap String String) :
    Except TemplatePlanError RouteTemplateProofArtifact := do
  let leafHashes ← table.entries.mapM fun entry =>
    routeTemplateLeafHash hashes table.id entry.leaf templates digestRoots
  let layers := routeTemplateMerkleLayers hashes leafHashes
  pure
    { id := routeTemplateProofReceiptId table.state table.field
      tableId := table.id
      state := table.state
      field := table.field
      rootHex := routeTemplateMerkleRootHex hashes layers
      leaves := (table.entries.zip leafHashes).mapIdx fun position pair =>
        proofLeaf hashes layers pair.1 pair.2 position }

/-- a route-family leaf must not name the proof it belongs to -/
def rejectRecursiveLeaf (proofId : String) (leaf : RouteTemplateLeafArtifact) :
    Except TemplatePlanError PUnit :=
  match leaf with
  | .routeFamily familyId leafProofId =>
    rejectIf (leafProofId = proofId) (.recursiveRouteFamilyLeaf proofId familyId)
  | .template _ _ => .ok ⟨⟩

/-- the checks on one leaf; `expectedLeafHashes` has a hash for every entry of the table -/
def verifyProofLeaf (hashes : Hashes) (proof : RouteTemplateProofArtifact)
    (expectedLeafHashes : List Digest) (expectedLayers : List (List Digest)) (root : Digest)
    (index : Nat) (leaf : RouteTemplateProofLeafArtifact)
    (entry : RouteTemplateTableEntryArtifact) : Except TemplatePlanError PUnit := do
  rejectIf (leaf.index ≠ entry.index ∨ leaf.leaf ≠ entry.leaf)
    (.routeProofTableMismatch proof.id proof.tableId)
  rejectRecursiveLeaf proof.id leaf.leaf
  let expectedHashHex := encodeDigest hashes (expectedLeafHashes.getD index default)
  rejectIf (leaf.hashHex ≠ expectedHashHex)
    (.routeProofLeafHashMismatch proof.id index expectedHashHex leaf.hashHex)
  let mismatch := fun resolved : Digest =>
    TemplatePlanError.routeProofMismatch proof.id index (encodeDigest hashes root)
      (encodeDigest hashes resolved)
  let expectedProof := routeTemplateMerkleProof hashes expectedLayers index
  if leaf.proof ≠ expectedProof then
    let resolved ← routeTemplateMerkleProofRoot hashes proof.id leaf.hashHex leaf.proof
    .error (mismatch resolved)
  else
    let resolved ← routeTemplateMerkleProofRoot hashes proof.id leaf.hashHex leaf.proof
    rejectIf (resolved ≠ root) (mismatch resolved)

/-- the roots of the indexed proofs -/
def digestRoots (routeProofsById : BTreeMap String RouteTemplateProofArtifact) :
    BTreeMap String String :=
  routeProofsById.mapValues (·.rootHex)

def verifyRouteTemplateProof (hashes : Hashes) (proof : RouteTemplateProofArtifact)
    (table : RouteTemplateTableArtifact) (templates : TemplateHashLookup)
    (routeProofsById : BTreeMap String RouteTemplateProofArtifact) :
    Except TemplatePlanError PUnit := do
  let expectedId := routeTemplateProofReceiptId table.state table.field
  rejectIf (proof.id ≠ expectedId ∨ proof.tableId ≠ table.id ∨ proof.state ≠ table.state ∨
      proof.field ≠ table.field ∨ proof.leaves.length ≠ table.entries.length)
    (.routeProofTableMismatch proof.id proof.tableId)
  let expectedLeafHashes ← table.entries.mapM fun entry =>
    routeTemplateLeafHash hashes table.id entry.leaf templates (digestRoots routeProofsById)
  let expectedLayers := routeTemplateMerkleLayers hashes expectedLeafHashes
  let expectedRootHex := routeTemplateMerkleRootHex hashes expectedLayers
  rejectIf (proof.rootHex ≠ expectedRootHex)
    (.routeProofRootMismatch proof.id expectedRootHex proof.rootHex)
  let root ← decodeHashHex hashes proof.id proof.rootHex
  (proof.leaves.zip table.entries).zipIdx.forM fun item =>
    verifyProofLeaf hashes proof expectedLeafHashes expectedLayers root item.2 item.1.1 item.1.2

/-! ## replaying a path -/

def proofStep (hashes : Hashes) (step : Merkle.Step Digest) : RouteTemplateProofStepArtifact where
  side :=
    match step.side with
    | .left => .left
    | .right => .right
  hashHex := encodeDigest hashes step.sibling

theorem climb_eq (hashes : Hashes) (layers : List (List Digest)) (index : Nat) :
    routeTemplateMerkleProof.climb hashes layers index =
      (Merkle.climb layers index).map (proofStep hashes) := by
  induction layers generalizing index with
  | nil => rfl
  | cons layer rest ih =>
    rw [routeTemplateMerkleProof.climb, Merkle.climb, List.map_cons, ih]
    congr 1
    unfold proofStep Merkle.step Merkle.siblingIndex
    by_cases h : index % 2 = 0
    · simp only [h, beq_self_eq_true, if_true]
    · simp only [h, beq_iff_eq, if_false]

theorem routeTemplateMerkleProof_eq (hashes : Hashes) (layers : List (List Digest))
    (index : Nat) : routeTemplateMerkleProof hashes layers index =
      (Merkle.path layers index).map (proofStep hashes) := by
  show routeTemplateMerkleProof.climb hashes (layers.take (layers.length - 1)) index = _
  rw [climb_eq, ← List.dropLast_eq_take]
  rfl

section
variable {hashes : Hashes} (hround : hashes.RoundTrips)
include hround

/-- the verifier's replay is the replay of the tree -/
theorem proofRoot_map (id : String) (leaf : Digest) (steps : List (Merkle.Step Digest)) :
    routeTemplateMerkleProofRoot hashes id (encodeDigest hashes leaf)
        (steps.map (proofStep hashes)) =
      .ok (Merkle.replay (routeTemplateMerkleParent hashes) leaf steps) := by
  unfold routeTemplateMerkleProofRoot
  rw [decodeHashHex_encodeDigest hround]
  show List.foldlM _ leaf _ = _
  induction steps generalizing leaf with
  | nil => rfl
  | cons step steps ih =>
    rw [List.map_cons, List.foldlM_cons]
    have hsibling := decodeHashHex_encodeDigest hround id step.sibling
    have hstep : (proofStep hashes step).hashHex = encodeDigest hashes step.sibling := rfl
    rw [hstep, hsibling]
    have hjoin : Merkle.replay (routeTemplateMerkleParent hashes) leaf (step :: steps) =
        Merkle.replay (routeTemplateMerkleParent hashes)
          (Merkle.join (routeTemplateMerkleParent hashes) leaf step) steps := rfl
    rw [hjoin, ← ih]
    cases hside : step.side with
    | left =>
      unfold proofStep Merkle.join
      rw [hside]
      rfl
    | right =>
      unfold proofStep Merkle.join
      rw [hside]
      rfl

/-- the layers of a table have one root, and the path of every position leads to it -/
theorem proofRoot_path (leaves : List Digest) :
    ∃ root, routeTemplateMerkleRootHex hashes (routeTemplateMerkleLayers hashes leaves) =
        encodeDigest hashes root ∧
      ∀ id index, index < leaves.length →
        routeTemplateMerkleProofRoot hashes id (encodeDigest hashes (leaves.getD index default))
          (routeTemplateMerkleProof hashes (routeTemplateMerkleLayers hashes leaves) index) =
            .ok root := by
  cases leaves with
  | nil => exact ⟨hashes.blake3 [], rfl, fun _ _ h => absurd h (Nat.not_lt_zero _)⟩
  | cons leaf rest =>
    have hlayers : routeTemplateMerkleLayers hashes (leaf :: rest) =
        Merkle.layers (routeTemplateMerkleParent hashes) (leaf :: rest) := rfl
    have hreplay := fun index (hlt : index < (leaf :: rest).length) =>
      Merkle.replay_path (routeTemplateMerkleParent hashes) (leaf :: rest) hlt
    obtain ⟨root, hroot⟩ : ∃ root, Merkle.root (Merkle.layers (routeTemplateMerkleParent hashes)
        (leaf :: rest)) = some root := ⟨_, hreplay 0 (Nat.succ_pos _)⟩
    rw [hlayers]
    refine ⟨root, ?_, fun id index hindex => ?_⟩
    · unfold routeTemplateMerkleRootHex
      unfold Merkle.root at hroot
      rw [hroot]
    · rw [routeTemplateMerkleProof_eq, proofRoot_map hround]
      exact congrArg Except.ok (Option.some.inj ((hreplay index hindex).symm.trans hroot))

end

/-- the pairs of nodes that the tree over some leaves hashes -/
def routeTemplateMerklePairs (hashes : Hashes) (leaves : List Digest) : List (Digest × Digest) :=
  Merkle.joined (routeTemplateMerkleParent hashes) leaves

/-- the trees over two lists of leaves hash no two different pairs to one node -/
def ParentInjective (hashes : Hashes) (leaves leaves' : List Digest) : Prop :=
  Merkle.CollisionFree (routeTemplateMerkleParent hashes) (routeTemplateMerklePairs hashes leaves)
    (routeTemplateMerklePairs hashes leaves')

section
variable {hashes : Hashes} (hround : hashes.RoundTrips)
include hround

theorem encodeDigest_inj {d e : Digest} (h : encodeDigest hashes d = encodeDigest hashes e) :
    d = e := by
  have hd := decodeHashHex_encodeDigest hround "" d
  rw [h, decodeHashHex_encodeDigest hround] at hd
  exact (Except.ok.inj hd).symm

theorem rootHex_root {leaves : List Digest} (hne : leaves ≠ []) :
    ∃ root, Merkle.root (Merkle.layers (routeTemplateMerkleParent hashes) leaves) = some root ∧
      routeTemplateMerkleRootHex hashes (routeTemplateMerkleLayers hashes leaves) =
        encodeDigest hashes root := by
  have hpos : 0 < leaves.length := List.length_pos_of_ne_nil hne
  have hroot := Merkle.replay_path (routeTemplateMerkleParent hashes) leaves hpos
  refine ⟨_, hroot, ?_⟩
  unfold routeTemplateMerkleLayers routeTemplateMerkleRootHex
  rw [if_neg (by simpa using hne)]
  unfold Merkle.root at hroot
  rw [hroot]

/-- the root of a table determines its leaves among the tables of one length -/
theorem leaves_of_rootHex {leaves leaves' : List Digest} (hne : leaves ≠ [])
    (hlen : leaves'.length = leaves.length) (hinj : ParentInjective hashes leaves' leaves)
    (h : routeTemplateMerkleRootHex hashes (routeTemplateMerkleLayers hashes leaves') =
      routeTemplateMerkleRootHex hashes (routeTemplateMerkleLayers hashes leaves)) :
    leaves' = leaves := by
  have hne' : leaves' ≠ [] := by
    intro hnil
    rw [hnil] at hlen
    exact hne (List.length_eq_zero_iff.mp hlen.symm)
  obtain ⟨root, hroot, hhex⟩ := rootHex_root hround hne
  obtain ⟨root', hroot', hhex'⟩ := rootHex_root hround hne'
  rw [hhex, hhex'] at h
  obtain rfl := encodeDigest_inj hround h
  exact Merkle.root_inj hlen hinj (hroot'.trans hroot.symm)

/-- the path of every leaf leads to the root of its table, and the root determines the leaves among
the tables of one length as long as the parent hash is injective on the pairs of their trees -/
theorem merkle_root_binds {leaves : List Digest} (hne : leaves ≠ []) :
    ∃ root, routeTemplateMerkleRootHex hashes (routeTemplateMerkleLayers hashes leaves) =
        encodeDigest hashes root ∧
      (∀ id index (h : index < leaves.length),
        routeTemplateMerkleProofRoot hashes id (encodeDigest hashes leaves[index])
          (routeTemplateMerkleProof hashes (routeTemplateMerkleLayers hashes leaves) index) =
            .ok root) ∧
      ∀ leaves', leaves'.length = leaves.length → ParentInjective hashes leaves' leaves →
        routeTemplateMerkleRootHex hashes (routeTemplateMerkleLayers hashes leaves') =
          routeTemplateMerkleRootHex hashes (routeTemplateMerkleLayers hashes leaves) →
        leaves' = leaves := by
  obtain ⟨root, hroot, hpaths⟩ := proofRoot_path hround leaves
  refine ⟨root, hroot, fun id index h => ?_, fun leaves' hlen hinj heq => ?_⟩
  · have hpath := hpaths id index h
    rw [List.getD_eq_getElem _ _ h] at hpath
    exact hpath
  · exact leaves_of_rootHex hround hne hlen hinj heq

end

/-! ## the verifier accepts the proof of the builder -/

theorem rejectRecursiveLeaf_eq_ok {proofId : String} {leaf : RouteTemplateLeafArtifact} :
    rejectRecursiveLeaf proofId leaf = .ok ⟨⟩ ↔
      ∀ familyId, leaf ≠ .routeFamily familyId proofId := by
  cases leaf with
  | template actor templateId => simp [rejectRecursiveLeaf]
  | routeFamily familyId leafProofId =>
    unfold rejectRecursiveLeaf
    rw [rejectIf_eq_ok]
    constructor
    · intro h familyId' heq
      exact h (RouteTemplateLeafArtifact.routeFamily.inj heq).2
    · intro h heq
      exact h familyId (by rw [heq])

/-- one leaf passes when it is the builder's leaf and does not name the proof itself -/
theorem verifyProofLeaf_eq_ok {hashes : Hashes} {proof : RouteTemplateProofArtifact}
    {leafHashes : List Digest} {root : Digest}
    (hroot : ∀ id index, index < leafHashes.length →
      routeTemplateMerkleProofRoot hashes id (encodeDigest hashes (leafHashes.getD index default))
        (routeTemplateMerkleProof hashes (routeTemplateMerkleLayers hashes leafHashes) index) =
          .ok root)
    {index : Nat} (hindex : index < leafHashes.length) {leaf : RouteTemplateProofLeafArtifact}
    {entry : RouteTemplateTableEntryArtifact} :
    verifyProofLeaf hashes proof leafHashes (routeTemplateMerkleLayers hashes leafHashes) root
        index leaf entry = .ok ⟨⟩ ↔
      (∀ familyId, leaf.leaf ≠ .routeFamily familyId proof.id) ∧
        leaf = proofLeaf hashes (routeTemplateMerkleLayers hashes leafHashes) entry
          (leafHashes.getD index default) index := by
  unfold verifyProofLeaf
  rw [check_eq_ok, check_eq_ok, check_eq_ok, rejectIf_eq_ok, rejectIf_eq_ok,
    rejectRecursiveLeaf_eq_ok, not_or, not_not, not_not, not_not]
  constructor
  · rintro ⟨⟨hidx, hleaf⟩, hrec, hhash, hproof⟩
    dsimp only at hproof
    split_ifs at hproof with hp
    · obtain ⟨_, -, hbad⟩ := bind_eq_ok.mp hproof
      cases hbad
    · refine ⟨hrec, ?_⟩
      rw [not_not] at hp
      cases leaf
      exact RouteTemplateProofLeafArtifact.mk.injEq .. ▸ ⟨hidx, hleaf, hhash, hp⟩
  · rintro ⟨hrec, rfl⟩
    refine ⟨⟨rfl, rfl⟩, hrec, rfl, ?_⟩
    dsimp only
    split_ifs with hp
    · exact absurd rfl hp
    · refine bind_eq_ok.mpr ⟨root, hroot proof.id index hindex, ?_⟩
      exact rejectIf_eq_ok.mpr (not_not.mpr rfl)

theorem eq_mapIdx_zip_iff {α β γ : Type*} [Inhabited γ] {l : List α} {m : List β} {n : List γ}
    (hlen : m.length = n.length) (f : Nat → β × γ → α) :
    l = (m.zip n).mapIdx f ↔ l.length = m.length ∧
      ∀ i a b, l[i]? = some a → m[i]? = some b → a = f i (b, n.getD i default) := by
  constructor
  · rintro rfl
    refine ⟨?_, fun i a b ha hb => ?_⟩
    · rw [List.length_mapIdx, List.length_zip, hlen, Nat.min_self]
    · obtain ⟨hi, rfl⟩ := List.getElem?_eq_some_iff.mp hb
      have hin : i < n.length := hlen ▸ hi
      have hzip : (m.zip n)[i]? = some (m[i], n[i]) := List.getElem?_zip_eq_some.mpr
        ⟨List.getElem?_eq_getElem hi, List.getElem?_eq_getElem hin⟩
      rw [List.getElem?_mapIdx, hzip] at ha
      rw [List.getD_eq_getElem _ _ hin]
      exact (Option.some.inj ha).symm
  · rintro ⟨hl, h⟩
    refine List.ext_getElem ?_ fun i hi hi' => ?_
    · rw [List.length_mapIdx, List.length_zip, ← hlen, Nat.min_self, hl]
    · have him : i < m.length := hl ▸ hi
      have hin : i < n.length := hlen ▸ him
      rw [List.getElem_mapIdx, List.getElem_zip, ← List.getD_eq_getElem n default hin]
      exact h i _ _ (List.getElem?_eq_getElem hi) (List.getElem?_eq_getElem him)

section
variable {hashes : Hashes} (hround : hashes.RoundTrips) {proof : RouteTemplateProofArtifact}
  {table : RouteTemplateTableArtifact} {templates : TemplateHashLookup}
  {routeProofsById : BTreeMap String RouteTemplateProofArtifact}
include hround

/-- an accepted proof is the builder's, and no leaf of it names the proof itself -/
theorem verifyRouteTemplateProof_canonical
    (h : verifyRouteTemplateProof hashes proof table templates routeProofsById = .ok ⟨⟩) :
    (∀ leaf ∈ proof.leaves, ∀ familyId, leaf.leaf ≠ .routeFamily familyId proof.id) ∧
      routeTemplateProofFromTable hashes table templates (digestRoots routeProofsById) =
        .ok proof := by
  unfold verifyRouteTemplateProof at h
  obtain ⟨hmeta, h⟩ := check_eq_ok.mp h
  obtain ⟨leafHashes, hhashes, h⟩ := bind_eq_ok.mp h
  obtain ⟨hrootHex, h⟩ := check_eq_ok.mp h
  obtain ⟨root, hdecode, h⟩ := bind_eq_ok.mp h
  rw [rejectIf_eq_ok] at hmeta hrootHex
  simp only [not_or, not_not] at hmeta hrootHex
  obtain ⟨hid, htable, hstate, hfield, hcount⟩ := hmeta
  have hlen : table.entries.length = leafHashes.length := (mapM_ok hhashes).length_eq
  obtain ⟨root', hroot', hpaths⟩ := proofRoot_path hround leafHashes
  have hroot : root' = root := by
    rw [hrootHex, hroot', decodeHashHex_encodeDigest hround] at hdecode
    exact Except.ok.inj hdecode
  subst hroot
  have hitem : ∀ i leaf entry, proof.leaves[i]? = some leaf → table.entries[i]? = some entry →
      (∀ familyId, leaf.leaf ≠ .routeFamily familyId proof.id) ∧
        leaf = proofLeaf hashes (routeTemplateMerkleLayers hashes leafHashes) entry
          (leafHashes.getD i default) i := by
    intro i leaf entry hleaf hentry
    have hi : i < leafHashes.length := hlen ▸ (List.getElem?_eq_some_iff.mp hentry).1
    refine (verifyProofLeaf_eq_ok hpaths hi).mp (forM_ok_of_mem h (a := ((leaf, entry), i)) ?_)
    rw [List.mem_zipIdx_iff_getElem?]
    exact List.getElem?_zip_eq_some.mpr ⟨hleaf, hentry⟩
  refine ⟨fun leaf hleaf => ?_, bind_eq_ok.mpr ⟨leafHashes, hhashes, pure_eq_ok.mpr ?_⟩⟩
  · obtain ⟨i, hi, rfl⟩ := List.mem_iff_getElem.mp hleaf
    have hie : i < table.entries.length := hcount ▸ hi
    exact (hitem i _ _ (List.getElem?_eq_getElem hi) (List.getElem?_eq_getElem hie)).1
  · have hleaves := (eq_mapIdx_zip_iff hlen fun position pair => proofLeaf hashes
      (routeTemplateMerkleLayers hashes leafHashes) pair.1 pair.2 position).mpr
        ⟨hcount, fun i leaf entry hl he => (hitem i leaf entry hl he).2⟩
    rw [← hid, ← htable, ← hstate, ← hfield, ← hrootHex, ← hleaves]

/-- the proof of the builder is accepted, unless a leaf of it names the proof itself -/
theorem verifyRouteTemplateProof_of_canonical
    (hrec : ∀ leaf ∈ proof.leaves, ∀ familyId, leaf.leaf ≠ .routeFamily familyId proof.id)
    (h : routeTemplateProofFromTable hashes table templates (digestRoots routeProofsById) =
      .ok proof) :
    verifyRouteTemplateProof hashes proof table templates routeProofsById = .ok ⟨⟩ := by
  obtain ⟨leafHashes, hhashes, h⟩ := bind_eq_ok.mp h
  have hproof := pure_eq_ok.mp h
  have hlen : table.entries.length = leafHashes.length := (mapM_ok hhashes).length_eq
  obtain ⟨root, hroot, hpaths⟩ := proofRoot_path hround leafHashes
  have hleaves := (eq_mapIdx_zip_iff hlen fun position pair => proofLeaf hashes
    (routeTemplateMerkleLayers hashes leafHashes) pair.1 pair.2 position).mp
      (congrArg RouteTemplateProofArtifact.leaves hproof).symm
  have hrootHex := (congrArg RouteTemplateProofArtifact.rootHex hproof).symm
  refine check_eq_ok.mpr ⟨rejectIf_eq_ok.mpr ?_, bind_eq_ok.mpr ⟨leafHashes, hhashes, ?_⟩⟩
  · simp only [not_or, not_not]
    refine ⟨?_, ?_, ?_, ?_, hleaves.1⟩ <;> rw [← hproof]
  · refine check_eq_ok.mpr ⟨rejectIf_eq_ok.mpr (not_not.mpr hrootHex), ?_⟩
    refine bind_eq_ok.mpr ⟨root, ?_, forM_eq_ok.mpr fun item hitem => ?_⟩
    · rw [hrootHex, hroot, decodeHashHex_encodeDigest hround]
    · obtain ⟨⟨leaf, entry⟩, i⟩ := item
      rw [List.mem_zipIdx_iff_getElem?] at hitem
      obtain ⟨hleaf, hentry⟩ := List.getElem?_zip_eq_some.mp hitem
      have hi : i < leafHashes.length := hlen ▸ (List.getElem?_eq_some_iff.mp hentry).1
      exact (verifyProofLeaf_eq_ok hpaths hi).mpr
        ⟨hrec leaf (List.mem_of_getElem? hleaf), hleaves.2 i leaf entry hleaf hentry⟩

end

/-- the verifier accepts the proof that the builder computes from the same table, the same template
hashes and the roots of all indexed proofs, and no other -/
theorem verifyRouteTemplateProof_iff (hashes : Hashes) (hround : hashes.RoundTrips)
    (proof : RouteTemplateProofArtifact) (table : RouteTemplateTableArtifact)
    (templates : TemplateHashLookup)
    (routeProofsById : BTreeMap String RouteTemplateProofArtifact) :
    verifyRouteTemplateProof hashes proof table templates routeProofsById = .ok ⟨⟩ ↔
      (∀ leaf ∈ proof.leaves, ∀ familyId, leaf.leaf ≠ .routeFamily familyId proof.id) ∧
        routeTemplateProofFromTable hashes table templates (digestRoots routeProofsById) =
          .ok proof :=
  ⟨verifyRouteTemplateProof_canonical hround,
    fun h => verifyRouteTemplateProof_of_canonical hround h.1 h.2⟩

/-! ## a sample -/

/-- the one hash that the sample takes is BLAKE3 of its two leaves -/
def sampleParent : Digest where
  bytes := [97, 63, 253, 16, 193, 198, 24, 58, 91, 50, 34, 165, 242, 186, 227, 57, 91, 27, 200, 175,
    183, 95, 80, 238, 180, 246, 252, 98, 10, 37, 163, 202]
  length_bytes := rfl

def sampleHashes : Hashes := ⟨fun _ => sampleParent, hexText, parseHex⟩

theorem sampleHashes_roundTrips : sampleHashes.RoundTrips := parseHex_hexText

def sampleTable : RouteTemplateTableArtifact where
  id := "route_table/S/routes"
  state := "S"
  field := "routes"
  byteLen := 64
  entries := [⟨0, 0, .template "A" "template/A"⟩, ⟨1, 32, .template "B" "template/B"⟩]

def sampleReceipt (actor : String) (byte : UInt8) : TemplateReceiptArtifact where
  id := "template/" ++ actor
  actor := actor
  contract := actor
  symbol := actor
  silTemplateHash := Digest.repeated byte
  actorTypeHandle := ⟨"S", [], [], [], Digest.repeated byte⟩

def sampleReceipts : TemplateHashLookup := receiptLookup [sampleReceipt "A" 0x11, sampleReceipt "B" 0x22]

def sampleProof : RouteTemplateProofArtifact where
  id := "route_proof/S/routes"
  tableId := "route_table/S/routes"
  state := "S"
  field := "routes"
  rootHex := "613ffd10c1c6183a5b3222a5f2bae3395b1bc8afb75f50eeb4f6fc620a25a3ca"
  leaves := [
    ⟨0, .template "A" "template/A", hexText (Digest.repeated 0x11).bytes,
      [⟨.right, hexText (Digest.repeated 0x22).bytes⟩]⟩,
    ⟨1, .template "B" "template/B", hexText (Digest.repeated 0x22).bytes,
      [⟨.left, hexText (Digest.repeated 0x11).bytes⟩]⟩]

theorem verifyRouteTemplateProof_iff_sample :
    verifyRouteTemplateProof sampleHashes sampleProof sampleTable sampleReceipts ∅ = .ok ⟨⟩ :=
  (verifyRouteTemplateProof_iff sampleHashes sampleHashes_roundTrips sampleProof sampleTable
    sampleReceipts ∅).mpr ⟨by simp [sampleProof], by rfl⟩

/-- BLAKE3 of a third leaf joined with itself -/
def oddParent : Digest where
  bytes := [140, 84, 222, 167, 221, 196, 89, 179, 4, 153, 90, 196, 78, 118, 96, 167, 141, 105, 216,
    86, 222, 157, 40, 233, 102, 87, 55, 187, 184, 198, 191, 82]
  length_bytes := rfl

/-- BLAKE3 of the two nodes above the three leaves -/
def oddRoot : Digest where
  bytes := [30, 110, 244, 127, 130, 93, 100, 96, 251, 223, 227, 145, 90, 114, 115, 205, 206, 34,
    214, 149, 51, 37, 1, 248, 128, 212, 15, 47, 56, 62, 64, 54]
  length_bytes := rfl

/-- the three hashes that a table of three leaves takes -/
def oddHashes : Hashes where
  blake3 bytes :=
    if bytes = List.replicate 64 0x33 then oddParent
    else if bytes = sampleParent.bytes ++ oddParent.bytes then oddRoot
    else sampleParent
  hexEncode := hexText
  hexDecode := parseHex

def oddLeaves : List Digest := [Digest.repeated 0x11, Digest.repeated 0x22, Digest.repeated 0x33]

theorem oddHashes_roundTrips : oddHashes.RoundTrips := parseHex_hexText

theorem merkle_root_binds_odd :
    ∃ root, routeTemplateMerkleRootHex oddHashes (routeTemplateMerkleLayers oddHashes oddLeaves) =
        encodeDigest oddHashes root ∧
      (∀ id index (h : index < oddLeaves.length),
        routeTemplateMerkleProofRoot oddHashes id (encodeDigest oddHashes oddLeaves[index])
          (routeTemplateMerkleProof oddHashes (routeTemplateMerkleLayers oddHashes oddLeaves)
            index) = .ok root) ∧
      ∀ leaves, leaves.length = oddLeaves.length → ParentInjective oddHashes leaves oddLeaves →
        routeTemplateMerkleRootHex oddHashes (routeTemplateMerkleLayers oddHashes leaves) =
          routeTemplateMerkleRootHex oddHashes (routeTemplateMerkleLayers oddHashes oddLeaves) →
        leaves = oddLeaves :=
  merkle_root_binds oddHashes_roundTrips (List.cons_ne_nil _ _)

example : Merkle.root (Merkle.layers (routeTemplateMerkleParent oddHashes) oddLeaves) =
    some oddRoot := by decide +kernel

end Argent.Artifacts
