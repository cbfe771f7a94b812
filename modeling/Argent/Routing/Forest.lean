import Argent.Base.BTree
import Mathlib.Data.List.Lex
import Mathlib.Data.List.Sort

/-!
# Commitment forests

The forest of `routing/commitment.rs`: ordered trees whose leaves are actor templates, node paths,
cuts, opening and packing of one branch, and the transition between two cuts.

* `CommitmentNode`, `CommitmentForest`, `NodePath`, `Cut`   the data;
* `CommitmentForest.node`            lookup along a path;
* `CommitmentForest.isValidCut`      the adjacent-pair scan of `is_valid_cut`;
* `CommitmentForest.open`, `pack`    one step of a cut;
* `CommitmentForest.transition`      the operations from a source cut to a target cut.

A node borrowed from a forest is a `NodeRef`: where it lies, with the fact that it is there.
-/

set_option linter.unusedSectionVars false

namespace Argent.Routing

/-- one node in a commitment forest before any concrete hashing is chosen -/
inductive CommitmentNode (Actor : Type*) where
  | leaf (actor : Actor)
  | branch (children : List (CommitmentNode Actor))

/-- an ordered forest whose leaves are actor templates -/
structure CommitmentForest (Actor : Type*) where
  roots : List (CommitmentNode Actor)

/-! ## node paths -/

/-- the structural location of one node: the first index selects a forest root, each remaining
index a child -/
structure NodePath where
  pathIndices : List Nat
  selectsRoot : pathIndices ≠ []

namespace NodePath

theorem ext_indices {p q : NodePath} (h : p.pathIndices = q.pathIndices) : p = q := by
  cases p; cases q; cases h; rfl

/-- the derived lexicographic order -/
instance : LinearOrder NodePath := LinearOrder.lift' pathIndices fun _ _ h => ext_indices h

theorem le_def {p q : NodePath} : p ≤ q ↔ p.pathIndices ≤ q.pathIndices := Iff.rfl

def root (root : Nat) : NodePath := ⟨[root], List.cons_ne_nil _ _⟩

def child (p : NodePath) (child : Nat) : NodePath :=
  ⟨p.pathIndices ++ [child], List.append_ne_nil_of_right_ne_nil _ (List.cons_ne_nil _ _)⟩

def splitRoot (p : NodePath) : Nat × List Nat :=
  (p.pathIndices.head p.selectsRoot, p.pathIndices.tail)

def length (p : NodePath) : Nat := p.pathIndices.length

/-- `self.path_indices.starts_with(&other.path_indices)` -/
def startsWith (p other : NodePath) : Bool := other.pathIndices.isPrefixOf p.pathIndices

theorem startsWith_iff {p other : NodePath} :
    p.startsWith other = true ↔ other.pathIndices <+: p.pathIndices := List.isPrefixOf_iff_prefix

theorem length_pos (p : NodePath) : 0 < p.length := List.length_pos_of_ne_nil p.selectsRoot

@[simp] theorem length_child (p : NodePath) (i : Nat) : (p.child i).length = p.length + 1 := by
  show (p.pathIndices ++ [i]).length = _
  rw [List.length_append]
  rfl

theorem child_inj {p q : NodePath} {i j : Nat} : p.child i = q.child j ↔ p = q ∧ i = j := by
  constructor
  · intro h
    have h1 : p.pathIndices ++ [i] = q.pathIndices ++ [j] := congrArg pathIndices h
    obtain ⟨h2, h3⟩ := List.append_inj' h1 rfl
    exact ⟨ext_indices h2, by simpa using h3⟩
  · rintro ⟨rfl, rfl⟩
    rfl

/-- `NodePath::new(self.path_indices[..depth])` at a nonzero depth -/
def truncate (p : NodePath) (depth : Nat) (h : 0 < depth) : NodePath :=
  ⟨p.pathIndices.take depth, by
    intro hn
    rcases List.take_eq_nil_iff.mp hn with h0 | h0
    · omega
    · exact p.selectsRoot h0⟩

/-- the paths from `ancestor` down to, and without, `p` -/
def between (ancestor p : NodePath) : List NodePath :=
  (List.range (p.length - ancestor.length)).map fun i =>
    p.truncate (ancestor.length + i) (Nat.add_pos_left ancestor.length_pos i)

end NodePath

/-- a partial commitment-tree cut -/
abbrev Cut := BTreeSet NodePath

variable {Actor : Type*}

/-! ## lookup, opening, packing -/

namespace CommitmentNode

/-- the node below `n` along `path` -/
def walk (n : CommitmentNode Actor) : List Nat → Option (CommitmentNode Actor)
  | [] => some n
  | childIdx :: path =>
    match n with
    | leaf _ => none
    | branch children =>
      match children[childIdx]? with
      | none => none
      | some c => c.walk path

def isBranch : CommitmentNode Actor → Bool
  | leaf _ => false
  | branch _ => true

end CommitmentNode

namespace CommitmentForest

def node (f : CommitmentForest Actor) (path : NodePath) : Option (CommitmentNode Actor) :=
  match f.roots[path.splitRoot.1]? with
  | none => none
  | some n => n.walk path.splitRoot.2

/-- select every forest root -/
def rootCut (f : CommitmentForest Actor) : Cut :=
  BTreeSet.ofList ((List.range f.roots.length).map NodePath.root)

def isValidCutFrom (f : CommitmentForest Actor) : Option NodePath → List NodePath → Bool
  | _, [] => true
  | previous, path :: rest =>
    if (f.node path).isNone then false
    else if previous.any fun p => path.startsWith p then false
    else f.isValidCutFrom (some path) rest

/-- every selected path exists and adjacent paths are not nested -/
def isValidCut (f : CommitmentForest Actor) (cut : Cut) : Bool := f.isValidCutFrom none cut.toList

end CommitmentForest

/-- replace one selected branch with all of its immediate children -/
def CommitmentForest.open (f : CommitmentForest Actor) (cut : Cut) (branch : NodePath) :
    Option Cut :=
  if f.isValidCut cut = true ∧ branch ∈ cut then
    match f.node branch with
    | some (.branch children) =>
      if children.isEmpty then none
      else some ((cut.erase branch).extend ((List.range children.length).map branch.child))
    | _ => none
  else none

/-- replace all selected immediate children of one branch with that branch -/
def CommitmentForest.pack (f : CommitmentForest Actor) (cut : Cut) (branch : NodePath) :
    Option Cut :=
  if f.isValidCut cut = true then
    match f.node branch with
    | some (.branch children) =>
      if children.isEmpty then none
      else
        let childPaths := (List.range children.length).map branch.child
        if childPaths.any fun child => decide (child ∉ cut) then none
        else some (insert branch (childPaths.foldl (fun packed child => packed.erase child) cut))
    | _ => none
  else none

/-! ## transitions -/

section
variable (source : Cut)

/-! `collect_pack_paths` recurses from a node into its children; `n` is the node at `path`. -/
mutual

def collectPackNode : CommitmentNode Actor → NodePath → Cut → Bool × Cut
  | .leaf _, path, toPack => (decide (path ∈ source), toPack)
  | .branch children, path, toPack =>
    if path ∈ source then (true, toPack)
    else if children.isEmpty then (false, toPack)
    else
      match collectPackChildren children path 0 toPack with
      | (true, toPack) => (true, insert path toPack)
      | (false, toPack) => (false, toPack)

/-- the children from index `child` on, stopping at the first that cannot be packed -/
def collectPackChildren : List (CommitmentNode Actor) → NodePath → Nat → Cut → Bool × Cut
  | [], _, _, toPack => (true, toPack)
  | n :: rest, path, child, toPack =>
    match collectPackNode n (path.child child) toPack with
    | (true, toPack) => collectPackChildren rest path (child + 1) toPack
    | (false, toPack) => (false, toPack)

end
end

namespace CommitmentForest

def collectPackPaths (f : CommitmentForest Actor) (path : NodePath) (source toPack : Cut) :
    Bool × Cut :=
  match f.node path with
  | some n => collectPackNode source n path toPack
  | none => (decide (path ∈ source), toPack)

/-- a node borrowed from the forest: where it lies, with the fact that it is there -/
structure NodeRef (f : CommitmentForest Actor) where
  path : NodePath
  inForest : (f.node path).isSome = true

/-- the borrowed value -/
def NodeRef.get {f : CommitmentForest Actor} (r : f.NodeRef) : CommitmentNode Actor :=
  (f.node r.path).get r.inForest

theorem NodeRef.node_path {f : CommitmentForest Actor} (r : f.NodeRef) :
    f.node r.path = some r.get := (Option.some_get r.inForest).symm

def ref (f : CommitmentForest Actor) (path : NodePath) : Option f.NodeRef :=
  if h : (f.node path).isSome = true then some ⟨path, h⟩ else none

end CommitmentForest

/-- the operations needed to derive one actor's cut from another actor's cut -/
structure CutTransition (f : CommitmentForest Actor) where
  retained : List f.NodeRef
  branchesToOpen : List f.NodeRef
  branchesToPack : List f.NodeRef

/-- what the loop over the target cut accumulates -/
structure TransitionPaths where
  retained : List NodePath
  branchesToOpen : Cut
  branchesToPack : Cut

/-- parents first -/
def openOrder (left right : NodePath) : Prop :=
  left.length < right.length ∨ left.length = right.length ∧ left ≤ right

/-- children first -/
def packOrder (left right : NodePath) : Prop :=
  right.length < left.length ∨ right.length = left.length ∧ left ≤ right

instance : DecidableRel openOrder := fun l r => by unfold openOrder; infer_instance

instance : DecidableRel packOrder := fun l r => by unfold packOrder; infer_instance

namespace CommitmentForest

/-- one iteration of the loop over the target cut -/
def transitionStep (f : CommitmentForest Actor) (source : Cut) (acc : TransitionPaths)
    (targetPath : NodePath) : Option TransitionPaths :=
  if targetPath ∈ source then
    match f.node targetPath with
    | some _ => some { acc with retained := acc.retained ++ [targetPath] }
    | none => none
  else
    match source.toList.find? fun sourcePath => targetPath.startsWith sourcePath with
    | some sourceAncestor =>
      let branchPaths := NodePath.between sourceAncestor targetPath
      if branchPaths.all fun p => (f.node p).any CommitmentNode.isBranch then
        some { acc with branchesToOpen := acc.branchesToOpen.extend branchPaths }
      else none
    | none =>
      match f.collectPackPaths targetPath source acc.branchesToPack with
      | (true, toPack) => some { acc with branchesToPack := toPack }
      | (false, _) => none

def transitionPaths (f : CommitmentForest Actor) (source target : Cut) : Option TransitionPaths :=
  target.toList.foldlM (f.transitionStep source) ⟨[], ∅, ∅⟩

/-- Plan the operations from `source` to `target`.  The lookups of the last step are the `expect`s
of the source; `transition_isSome` shows that they never fail. -/
def transition (f : CommitmentForest Actor) (source target : Cut) : Option (CutTransition f) := do
  let paths ← f.transitionPaths source target
  let retained ← paths.retained.mapM f.ref
  let branchesToOpen ← (paths.branchesToOpen.toList.insertionSort openOrder).mapM f.ref
  let branchesToPack ← (paths.branchesToPack.toList.insertionSort packOrder).mapM f.ref
  return { retained, branchesToOpen, branchesToPack }

end CommitmentForest

end Argent.Routing
