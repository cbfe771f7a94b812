import Argent.Model.RoutesSound
import Mathlib.Data.List.Find

/-!
# Generated fields are the planned cut

* `GeneratedField.nodes`          what a generated field stands for in the commitment forest;
* `Inferred.leaves`               the planned leaves of an actor beside the nodes of its cut;
* `Inferred.fields_nodes`         **the generated fields stand for the nodes of the cut**;
* `generatedFields_cut`           for all actors of an app, with equal fields in one component.
-/

set_option linter.unusedSectionVars false
set_option linter.unusedVariables false

namespace Argent.Model
open Argent.Routing Argent.Fallible RouteGraph

/-- the branch of a planned family -/
def familyBranch (f : FamilyPlan DeclId DeclId) : CommitmentNode DeclId :=
  .branch (f.table.map .leaf)

/-- the branches of the planned families with one identity -/
def branchesOf (routes : RoutePlan DeclId DeclId) (id : String) : List (CommitmentNode DeclId) :=
  (routes.families.filter fun f => decide (routeFamilyId f.domain f.rep = id)).map familyBranch

/-- what a generated field stands for; a route table stands for its actors -/
def GeneratedFieldId.nodes (routes : RoutePlan DeclId DeclId) :
    GeneratedFieldId → List (CommitmentNode DeclId)
  | .template actor => [.leaf actor]
  | .routeFamilyDigest _ family => branchesOf routes family
  | .routeFamilyTable _ _ actors => actors.map .leaf

def GeneratedField.nodes (routes : RoutePlan DeclId DeclId) (field : GeneratedField) :
    List (CommitmentNode DeclId) := field.id.nodes routes

/-! ## leaves -/

theorem branchTable_ok {children : List (CommitmentNode DeclId)} {table : List DeclId}
    (h : branchTable children = .ok table) : children = table.map .leaf := by
  induction children generalizing table with
  | nil =>
    cases h
    rfl
  | cons node children ih =>
    cases node with
    | branch _ => cases h
    | leaf actor =>
      unfold branchTable at h
      obtain ⟨rest, hrest, h⟩ := bind_eq_ok.mp h
      rw [pure_eq_ok] at h
      rw [← h, List.map_cons, ih hrest]

theorem compilerRouteFamilyId_ok {routes : RoutePlan DeclId DeclId} {node : CommitmentNode DeclId}
    {id : String} (h : compilerRouteFamilyId routes node = .ok id) :
    ∃ f ∈ routes.families, node = familyBranch f ∧ id = routeFamilyId f.domain f.rep := by
  unfold compilerRouteFamilyId at h
  cases node with
  | leaf _ => cases h
  | branch children =>
    obtain ⟨table, htable, h⟩ := bind_eq_ok.mp h
    cases hfind : routes.families.find? fun family => decide (family.table = table) with
    | none => rw [hfind] at h; cases h
    | some f =>
      rw [hfind] at h
      rw [pure_eq_ok] at h
      have heq := List.find?_some
        (p := fun family : FamilyPlan DeclId DeclId => decide (family.table = table)) hfind
      refine ⟨f, List.mem_of_find?_eq_some hfind, ?_, h.symm⟩
      unfold familyBranch
      rw [branchTable_ok htable, of_decide_eq_true heq]

theorem compilerRouteLeaf_ok {routes : RoutePlan DeclId DeclId} {node : CommitmentNode DeclId}
    {leaf : RouteRootLeaf} (h : compilerRouteLeaf routes node = .ok leaf) :
    (∃ x, node = .leaf x ∧ leaf = .actor x) ∨ ∃ f ∈ routes.families, node = familyBranch f ∧
      leaf = .family (routeFamilyId f.domain f.rep) := by
  unfold compilerRouteLeaf at h
  cases node with
  | leaf x =>
    cases h
    exact Or.inl ⟨x, rfl, rfl⟩
  | branch children =>
    obtain ⟨id, hid, h⟩ := bind_eq_ok.mp h
    rw [pure_eq_ok] at h
    obtain ⟨f, hf, hnode, hfid⟩ := compilerRouteFamilyId_ok hid
    exact Or.inr ⟨f, hf, hnode, by rw [← h, hfid]⟩

theorem mem_leafActors {leaves : List RouteRootLeaf} {x : DeclId} :
    x ∈ leafActors leaves ↔ .actor x ∈ leaves := by
  unfold leafActors
  rw [List.mem_filterMap]
  constructor
  · intro ⟨leaf, hmem, h⟩
    cases leaf with
    | actor y =>
      cases h
      exact hmem
    | family _ => cases h
  · intro h
    exact ⟨_, h, rfl⟩

theorem mem_leafFamilies {leaves : List RouteRootLeaf} {id : String} :
    id ∈ leafFamilies leaves ↔ .family id ∈ leaves := by
  unfold leafFamilies
  rw [List.mem_filterMap]
  constructor
  · intro ⟨leaf, hmem, h⟩
    cases leaf with
    | actor _ => cases h
    | family other =>
      cases h
      exact hmem
  · intro h
    exact ⟨_, h, rfl⟩

theorem nodup_leafActors {leaves : List RouteRootLeaf} (h : leaves.Nodup) :
    (leafActors leaves).Nodup := by
  refine List.Nodup.filterMap (fun a b x ha hb => ?_) h
  cases a with
  | family _ => cases ha
  | actor _ =>
    cases b with
    | family _ => cases hb
    | actor _ =>
      cases ha
      cases hb
      rfl

theorem nodup_leafFamilies {leaves : List RouteRootLeaf} (h : leaves.Nodup) :
    (leafFamilies leaves).Nodup := by
  refine List.Nodup.filterMap (fun a b x ha hb => ?_) h
  cases a with
  | actor _ => cases ha
  | family _ =>
    cases b with
    | actor _ => cases hb
    | family _ =>
      cases ha
      cases hb
      rfl

namespace Inferred
variable {app : App} {plan : CompilerRoutePlan} {inputs : RouteInputs}
  {routes : RoutePlan DeclId DeclId} {constraints : CommitmentConstraints DeclId}
  (h : Inferred app plan inputs routes constraints)
include h

theorem leaves {actor : DeclId} {nodes : List (CommitmentNode DeclId)}
    (hn : routes.commitments.cutNodes actor = some nodes) :
    ∃ leaves, routeLeaves plan actor = some leaves ∧
      nodes.mapM (compilerRouteLeaf routes) = .ok leaves := by
  have hl := h.lowered
  unfold compilerRoutePlan at hl
  obtain ⟨byActor, hby, hl⟩ := bind_eq_ok.mp hl
  obtain ⟨transitions, _, hl⟩ := bind_eq_ok.mp hl
  rw [pure_eq_ok] at hl
  unfold compilerRouteLeaves at hby
  have hkey : actor ∈ routes.commitments.cuts.keys.toList := by
    rw [BTreeSet.mem_toList, BTreeMap.mem_keys]
    unfold CommitmentPlan.cutNodes at hn
    cases hc : routes.commitments.cuts.get actor with
    | none => rw [hc] at hn; cases hn
    | some cut => rfl
  -- the entry of `actor` is the only one with its name
  have hof : ∀ {a : DeclId} {entry}, compilerRouteLeavesOf routes a = .ok entry → entry.1 = a ∧
      ((routes.commitments.cutNodes a).getD []).mapM (compilerRouteLeaf routes) = .ok entry.2 := by
    intro a entry hentry
    unfold compilerRouteLeavesOf at hentry
    obtain ⟨leaves, hleaves, hentry⟩ := bind_eq_ok.mp hentry
    rw [pure_eq_ok] at hentry
    rw [← hentry]
    exact ⟨rfl, hleaves⟩
  obtain ⟨entry, hentry, hok⟩ := mapM_ok_of_mem hby hkey
  have hroute : routeLeaves plan actor = some entry.2 := by
    unfold routeLeaves
    rw [← hl]
    dsimp only
    cases hfind : byActor.find? fun entry => decide (entry.1 = actor) with
    | none =>
      exact absurd (decide_eq_true (hof hok).1) (List.find?_eq_none.mp hfind entry hentry)
    | some entry' =>
      have heq := List.find?_some
        (p := fun entry : DeclId × List RouteRootLeaf => decide (entry.1 = actor)) hfind
      obtain ⟨a', _, hok'⟩ := mem_of_mapM_ok hby (List.mem_of_find?_eq_some hfind)
      rw [← (hof hok').1, of_decide_eq_true heq, hok] at hok'
      rw [Option.map_some, Except.ok.inj hok']
  refine ⟨entry.2, hroute, ?_⟩
  have hmap := (hof hok).2
  rwa [hn] at hmap

/-! ## fields -/

theorem branchesOf_family (hs : validateGeneratedActorSuffixes app = .ok ())
    {f : FamilyPlan DeclId DeclId} (hf : f ∈ routes.families) :
    branchesOf routes (routeFamilyId f.domain f.rep) = [familyBranch f] := by
  unfold branchesOf
  have hperm : (routes.families.filter fun f' =>
      decide (routeFamilyId f'.domain f'.rep = routeFamilyId f.domain f.rep)).Perm [f] := by
    refine (List.perm_ext_iff_of_nodup (h.families_nodup.filter _) (List.nodup_singleton f)).mpr
      fun f' => ?_
    rw [List.mem_filter, decide_eq_true_eq, List.mem_singleton]
    constructor
    · intro ⟨hf', hid⟩
      exact h.family_inj hs hf' hf hid
    · intro heq
      rw [heq]
      exact ⟨hf, rfl⟩
  rw [List.perm_singleton.mp hperm, List.map_singleton]

theorem templateFields_ok {l : List DeclId} (hl : ∀ a ∈ l, a ∈ app.actors.map (·.name)) :
    ∃ fields, l.mapM (templateField app) = .ok fields ∧
      fields.flatMap (·.nodes routes) = l.map .leaf := by
  have hone : ∀ a, ∀ field, templateField app a = .ok field → field.nodes routes = [.leaf a] := by
    intro a field hf
    unfold templateField at hf
    cases ha : app.actor? a with
    | none => rw [ha] at hf; cases hf
    | some model =>
      rw [ha] at hf
      cases hf
      rfl
  obtain ⟨fields, hf⟩ := exists_mapM_ok (f := templateField app) (l := l) fun a ha => by
    obtain ⟨model, hm⟩ := Option.isSome_iff_exists.mp (App.actor?_isSome.mpr (hl a ha))
    exact ⟨_, by unfold templateField; rw [hm]⟩
  exact ⟨fields, hf, by rw [flatMap_of_mapM_ok hf hone, List.map_eq_flatMap]⟩

theorem digestFields_ok {l : List String}
    (hl : ∀ id ∈ l, ∃ f ∈ routes.families, id = routeFamilyId f.domain f.rep) :
    ∃ fields, l.mapM (routeCutDigestField app plan) = .ok fields ∧
      fields.flatMap (·.nodes routes) = l.flatMap (branchesOf routes) := by
  have hone : ∀ id, ∀ field, routeCutDigestField app plan id = .ok field →
      field.nodes routes = branchesOf routes id := by
    intro id field hf
    unfold routeCutDigestField at hf
    cases hfam : routeFamily plan id with
    | none => rw [hfam] at hf; cases hf
    | some family =>
      rw [hfam] at hf
      cases hf
      have heq := List.find?_some (p := fun family : RouteFamily => decide (family.id = id)) hfam
      change branchesOf routes family.id = branchesOf routes id
      rw [of_decide_eq_true heq]
  obtain ⟨fields, hf⟩ := exists_mapM_ok (f := routeCutDigestField app plan) (l := l) fun id hid => by
    obtain ⟨f, hf, heq⟩ := hl id hid
    unfold routeCutDigestField
    cases hfam : routeFamily plan id with
    | some family => exact ⟨_, rfl⟩
    | none =>
      have hmem : compilerRouteFamily f ∈ plan.families := by
        rw [h.plan_families]
        exact List.mem_map_of_mem hf
      exact absurd (decide_eq_true heq.symm) (List.find?_eq_none.mp hfam _ hmem)
  exact ⟨fields, hf, flatMap_of_mapM_ok hf hone⟩

theorem familyBranch_inj {f f' : FamilyPlan DeclId DeclId} (hf : f ∈ routes.families)
    (hf' : f' ∈ routes.families) (heq : familyBranch f = familyBranch f') : f = f' := by
  have htable : f.table = f'.table := by
    unfold familyBranch at heq
    injection heq with hmap
    exact List.map_injective_iff.mpr (fun x y hxy => by injection hxy) hmap
  have hfind := h.find_table hf
  rw [htable] at hfind
  exact Option.some.inj (hfind.symm.trans (h.find_table hf'))

end Inferred

/-- the leaves of an actor against the nodes of its cut -/
structure CarriedLeaves (routes : RoutePlan DeclId DeclId) (nodes : List (CommitmentNode DeclId))
    (leaves : List RouteRootLeaf) : Prop where
  actors : ∀ x, x ∈ leafActors leaves ↔ .leaf x ∈ nodes
  families : ∀ id, id ∈ leafFamilies leaves ↔
    ∃ f ∈ routes.families, id = routeFamilyId f.domain f.rep ∧ familyBranch f ∈ nodes
  nodupActors : (leafActors leaves).Nodup
  nodupFamilies : (leafFamilies leaves).Nodup

namespace Inferred
variable {app : App} {plan : CompilerRoutePlan} {inputs : RouteInputs}
  {routes : RoutePlan DeclId DeclId} {constraints : CommitmentConstraints DeclId}
  (h : Inferred app plan inputs routes constraints)
include h

theorem carriedLeaves (hs : validateGeneratedActorSuffixes app = .ok ())
    {nodes : List (CommitmentNode DeclId)} (hnodup : nodes.Nodup) {leaves : List RouteRootLeaf}
    (hl : nodes.mapM (compilerRouteLeaf routes) = .ok leaves) : CarriedLeaves routes nodes leaves := by
  have hinj : ∀ n n' leaf, compilerRouteLeaf routes n = .ok leaf →
      compilerRouteLeaf routes n' = .ok leaf → n = n' := by
    intro n n' leaf hn hn'
    obtain ⟨x, hx, hleaf⟩ | ⟨f, hf, hx, hleaf⟩ := compilerRouteLeaf_ok hn
    · obtain ⟨x', hx', hleaf'⟩ | ⟨f', hf', hx', hleaf'⟩ := compilerRouteLeaf_ok hn'
      · rw [hleaf] at hleaf'
        cases hleaf'
        rw [hx, hx']
      · rw [hleaf] at hleaf'
        cases hleaf'
    · obtain ⟨x', hx', hleaf'⟩ | ⟨f', hf', hx', hleaf'⟩ := compilerRouteLeaf_ok hn'
      · rw [hleaf] at hleaf'
        cases hleaf'
      · rw [hleaf] at hleaf'
        injection hleaf' with hid
        rw [hx, hx', h.family_inj hs hf hf' hid]
  have hnd := nodup_of_mapM_ok hl hnodup hinj
  refine ⟨fun x => ?_, fun id => ?_, nodup_leafActors hnd, nodup_leafFamilies hnd⟩
  · rw [mem_leafActors]
    constructor
    · intro hx
      obtain ⟨n, hn, hok⟩ := mem_of_mapM_ok hl hx
      obtain ⟨y, hy, hleaf⟩ | ⟨f, hf, hy, hleaf⟩ := compilerRouteLeaf_ok hok
      · cases hleaf
        rwa [← hy]
      · cases hleaf
    · intro hx
      obtain ⟨leaf, hleaf, hok⟩ := mapM_ok_of_mem hl hx
      cases hok
      exact hleaf
  · rw [mem_leafFamilies]
    constructor
    · intro hid
      obtain ⟨n, hn, hok⟩ := mem_of_mapM_ok hl hid
      obtain ⟨y, hy, hleaf⟩ | ⟨f, hf, hy, hleaf⟩ := compilerRouteLeaf_ok hok
      · cases hleaf
      · injection hleaf with hid'
        exact ⟨f, hf, hid', hy ▸ hn⟩
    · intro ⟨f, hf, hid, hbranch⟩
      obtain ⟨leaf, hleaf, hok⟩ := mapM_ok_of_mem hl hbranch
      obtain ⟨y, hy, _⟩ | ⟨f', hf', hbranch', hleaf'⟩ := compilerRouteLeaf_ok hok
      · cases hy
      · rw [hid, h.familyBranch_inj hf hf' hbranch', ← hleaf']
        exact hleaf

theorem mem_branches (hs : validateGeneratedActorSuffixes app = .ok ()) {ids : List String}
    (hids : ∀ id ∈ ids, ∃ f ∈ routes.families, id = routeFamilyId f.domain f.rep)
    {n : CommitmentNode DeclId} :
    n ∈ ids.flatMap (branchesOf routes) ↔
      ∃ f ∈ routes.families, routeFamilyId f.domain f.rep ∈ ids ∧ n = familyBranch f := by
  rw [List.mem_flatMap]
  constructor
  · intro ⟨id, hid, hn⟩
    obtain ⟨f, hf, heq⟩ := hids id hid
    rw [heq, h.branchesOf_family hs hf, List.mem_singleton] at hn
    exact ⟨f, hf, heq ▸ hid, hn⟩
  · intro ⟨f, hf, hid, hn⟩
    refine ⟨_, hid, ?_⟩
    rw [h.branchesOf_family hs hf, hn]
    exact List.mem_singleton_self _

theorem nodup_branches (hs : validateGeneratedActorSuffixes app = .ok ()) {ids : List String}
    (hids : ∀ id ∈ ids, ∃ f ∈ routes.families, id = routeFamilyId f.domain f.rep)
    (hnd : ids.Nodup) : (ids.flatMap (branchesOf routes)).Nodup := by
  refine List.nodup_flatMap.mpr ⟨fun id hid => ?_, ?_⟩
  · obtain ⟨f, hf, heq⟩ := hids id hid
    rw [heq, h.branchesOf_family hs hf]
    exact List.nodup_singleton _
  · refine List.Pairwise.imp_of_mem (fun {id id'} hid hid' hne => ?_) hnd
    obtain ⟨f, hf, heq⟩ := hids id hid
    obtain ⟨f', hf', heq'⟩ := hids id' hid'
    intro n hn hn'
    rw [heq, h.branchesOf_family hs hf, List.mem_singleton] at hn
    rw [heq', h.branchesOf_family hs hf', List.mem_singleton] at hn'
    refine hne ?_
    rw [heq, heq', h.familyBranch_inj hf hf' (hn.symm.trans hn')]

theorem leaf_actor {actor : DeclId} {nodes : List (CommitmentNode DeclId)}
    (hn : PlannedNodes inputs.graph constraints routes.commitments actor nodes) {x : DeclId}
    (hx : .leaf x ∈ nodes) : x ∈ app.actors.map (·.name) := by
  obtain ⟨y, hy, heq⟩ | ⟨family, _, heq⟩ := hn.cases _ hx
  · injection heq with heq
    rw [heq]
    exact h.collected.selected y hy
  · cases heq

theorem node_cases {actor : DeclId} {nodes : List (CommitmentNode DeclId)}
    (hn : PlannedNodes inputs.graph constraints routes.commitments actor nodes)
    {n : CommitmentNode DeclId} (hmem : n ∈ nodes) :
    (∃ x, n = .leaf x) ∨ ∃ f ∈ routes.families, n = familyBranch f := by
  obtain ⟨x, _, heq⟩ | ⟨family, hfam, heq⟩ := hn.cases n hmem
  · exact Or.inl ⟨x, heq⟩
  · rw [h.planned.families] at hfam
    obtain ⟨f, hf, htable⟩ := List.mem_map.mp hfam
    exact Or.inr ⟨f, hf, by rw [heq, ← htable, familyBranch]⟩

section
variable (hs : validateGeneratedActorSuffixes app = .ok ()) {actor : DeclId}
  {nodes : List (CommitmentNode DeclId)} {leaves : List RouteRootLeaf}
  (hn : PlannedNodes inputs.graph constraints routes.commitments actor nodes)
  (hroute : routeLeaves plan actor = some leaves) (hc : CarriedLeaves routes nodes leaves)
include hs hn hroute hc

/-- without an own family, templates and digests follow the cut -/
theorem fields_plain (hown : routeFamilyForActor plan actor = none) :
    ∃ fields, generatedFieldsForActor app plan actor = .ok fields ∧
      (fields.flatMap (·.nodes routes)).Perm nodes := by
  have hids : ∀ id ∈ leafFamilies leaves, ∃ f ∈ routes.families,
      id = routeFamilyId f.domain f.rep := fun id hid => by
    obtain ⟨f, hf, heq, _⟩ := (hc.families id).mp hid
    exact ⟨f, hf, heq⟩
  obtain ⟨templates, ht, htn⟩ := h.templateFields_ok (l := leafActors leaves)
    fun a ha => h.leaf_actor hn ((hc.actors a).mp ha)
  obtain ⟨digests, hd, hdn⟩ := h.digestFields_ok hids
  refine ⟨templates ++ digests, ?_, ?_⟩
  · unfold generatedFieldsForActor
    rw [hroute, hown]
    dsimp only
    rw [ht, hd]
    rfl
  · rw [List.flatMap_append, htn, hdn]
    refine (List.perm_ext_iff_of_nodup ?_ hn.nodup).mpr fun n => ?_
    · refine List.nodup_append.mpr ⟨hc.nodupActors.map fun x y hxy => by injection hxy,
        h.nodup_branches hs hids hc.nodupFamilies, fun a ha b hb hab => ?_⟩
      obtain ⟨x, _, hx⟩ := List.mem_map.mp ha
      obtain ⟨f, _, _, hf⟩ := (h.mem_branches hs hids).mp hb
      rw [← hx, hf] at hab
      cases hab
    · rw [List.mem_append, h.mem_branches hs hids]
      constructor
      · intro hmem
        obtain hmem | ⟨f, hf, hid, heq⟩ := hmem
        · obtain ⟨x, hx, heq⟩ := List.mem_map.mp hmem
          rw [← heq]
          exact (hc.actors x).mp hx
        · obtain ⟨f', hf', hid', hbranch⟩ := (hc.families _).mp hid
          rw [heq, h.family_inj hs hf hf' hid']
          exact hbranch
      · intro hmem
        obtain ⟨x, heq⟩ | ⟨f, hf, heq⟩ := h.node_cases hn hmem
        · rw [heq] at hmem ⊢
          exact Or.inl (List.mem_map_of_mem ((hc.actors x).mpr hmem))
        · rw [heq] at hmem
          exact Or.inr ⟨f, hf, (hc.families _).mpr ⟨f, hf, rfl, hmem⟩, heq⟩

/-- with an own family, its members and its table stand for their leaves, which the cut carries -/
theorem fields_own {f : FamilyPlan DeclId DeclId} (hf : f ∈ routes.families)
    (hmember : actor ∈ f.members)
    (hown : routeFamilyForActor plan actor = some (compilerRouteFamily f)) :
    ∃ fields, generatedFieldsForActor app plan actor = .ok fields ∧
      (fields.flatMap (·.nodes routes)).Perm nodes := by
  have hcarried : ∀ x ∈ f.members, .leaf x ∈ nodes := by
    obtain ⟨cohort, hcohort, hin⟩ := h.family_cohort hf
    exact fun x hx => (hn.members cohort hcohort (hin actor hmember) x (hin x hx)).2
  -- the own family is open, so its branch is not selected
  have hclosed : familyBranch f ∉ nodes := by
    intro hbranch
    obtain ⟨hne, _, _⟩ :=
      (commitmentPlan_families h.planned.commitments).2.1 _ (h.table_mem hf)
    obtain ⟨x, hx⟩ := List.exists_mem_of_ne_nil _ hne
    exact hn.unmixed f.table (h.table_mem hf) hbranch x hx (hcarried x (h.table_subset hf x hx))
  set outside := (leafActors leaves).filter fun a => decide (a ∉ f.members) with houtside
  set ids := (leafFamilies leaves).filter
    fun id => decide (id ≠ routeFamilyId f.domain f.rep) with hidsdef
  set entries := f.members.filter fun a => decide (a ∉ f.table) with hentries
  have hmout : ∀ x, x ∈ outside ↔ .leaf x ∈ nodes ∧ x ∉ f.members := fun x => by
    rw [houtside, List.mem_filter, decide_eq_true_eq, hc.actors]
  have hment : ∀ x, x ∈ entries ↔ x ∈ f.members ∧ x ∉ f.table := fun x => by
    rw [hentries, List.mem_filter, decide_eq_true_eq]
  have hmids : ∀ id, id ∈ ids ↔ (∃ f' ∈ routes.families, id = routeFamilyId f'.domain f'.rep ∧
      familyBranch f' ∈ nodes) ∧ id ≠ routeFamilyId f.domain f.rep := fun id => by
    rw [hidsdef, List.mem_filter, decide_eq_true_eq, hc.families]
  have hids : ∀ id ∈ ids, ∃ f' ∈ routes.families, id = routeFamilyId f'.domain f'.rep :=
    fun id hid => by
      obtain ⟨⟨f', hf', heq, _⟩, _⟩ := (hmids id).mp hid
      exact ⟨f', hf', heq⟩
  obtain ⟨templates, ht, htn⟩ := h.templateFields_ok (l := outside)
    fun a ha => h.leaf_actor hn ((hmout a).mp ha).1
  obtain ⟨digests, hd, hdn⟩ := h.digestFields_ok hids
  obtain ⟨gates, hg, hgn⟩ := h.templateFields_ok (l := entries)
    fun a ha => h.leaf_actor hn (hcarried a ((hment a).mp ha).1)
  refine ⟨templates ++ digests ++ gates ++ [routeTableField app (compilerRouteFamily f)], ?_, ?_⟩
  · unfold generatedFieldsForActor
    rw [hroute, hown]
    dsimp only
    change (do
      let templates ← outside.mapM (templateField app)
      let digests ← ids.mapM (routeCutDigestField app plan)
      let entries ← entries.mapM (templateField app)
      return templates ++ digests ++ entries ++
        [routeTableField app (compilerRouteFamily f)] : Except String _) = _
    rw [ht, hd, hg]
    rfl
  · have htable : [routeTableField app (compilerRouteFamily f)].flatMap (·.nodes routes) =
        f.table.map .leaf := List.flatMap_singleton _ _
    rw [List.flatMap_append, List.flatMap_append, List.flatMap_append, htn, hdn, hgn, htable]
    have houtnd : outside.Nodup := hc.nodupActors.filter _
    have hidsnd : ids.Nodup := hc.nodupFamilies.filter _
    have hentnd : entries.Nodup := (h.members_nodup hf).filter _
    clear_value outside ids entries
    have hinj : Function.Injective (CommitmentNode.leaf : DeclId → CommitmentNode DeclId) :=
      fun x y hxy => by injection hxy
    refine (List.perm_ext_iff_of_nodup ?_ hn.nodup).mpr fun n => ?_
    · have hleaf : ∀ {l : List DeclId}, l.Nodup →
          (l.map (CommitmentNode.leaf : DeclId → CommitmentNode DeclId)).Nodup := fun hl => hl.map hinj
      refine List.nodup_append.mpr ⟨List.nodup_append.mpr ⟨List.nodup_append.mpr
        ⟨hleaf houtnd, h.nodup_branches hs hids hidsnd, ?_⟩, hleaf hentnd, ?_⟩,
        hleaf (h.table_nodup hf), ?_⟩
      · intro a ha b hb hab
        obtain ⟨x, _, hx⟩ := List.mem_map.mp ha
        obtain ⟨f', _, _, hf'⟩ := (h.mem_branches hs hids).mp hb
        rw [← hx, hf'] at hab
        cases hab
      · intro a ha b hb hab
        obtain ⟨y, hy, hyb⟩ := List.mem_map.mp hb
        obtain ha | ha := List.mem_append.mp ha
        · obtain ⟨x, hx, hxa⟩ := List.mem_map.mp ha
          rw [← hxa, ← hyb, hinj.eq_iff] at hab
          exact ((hmout x).mp hx).2 (hab ▸ ((hment y).mp hy).1)
        · obtain ⟨f', _, _, hf'⟩ := (h.mem_branches hs hids).mp ha
          rw [hf', ← hyb] at hab
          cases hab
      · intro a ha b hb hab
        obtain ⟨y, hy, hyb⟩ := List.mem_map.mp hb
        obtain ha | ha := List.mem_append.mp ha
        · obtain ha | ha := List.mem_append.mp ha
          · obtain ⟨x, hx, hxa⟩ := List.mem_map.mp ha
            rw [← hxa, ← hyb, hinj.eq_iff] at hab
            exact ((hmout x).mp hx).2 (hab ▸ h.table_subset hf y hy)
          · obtain ⟨f', _, _, hf'⟩ := (h.mem_branches hs hids).mp ha
            rw [hf', ← hyb] at hab
            cases hab
        · obtain ⟨x, hx, hxa⟩ := List.mem_map.mp ha
          rw [← hxa, ← hyb, hinj.eq_iff] at hab
          exact ((hment x).mp hx).2 (hab ▸ hy)
    · rw [List.mem_append, List.mem_append, List.mem_append, h.mem_branches hs hids]
      constructor
      · intro hmem
        obtain ((hmem | ⟨f', hf', hid, heq⟩) | hmem) | hmem := hmem
        · obtain ⟨x, hx, heq⟩ := List.mem_map.mp hmem
          rw [← heq]
          exact ((hmout x).mp hx).1
        · obtain ⟨⟨f'', hf'', hid', hbranch⟩, _⟩ := (hmids _).mp hid
          rw [heq, h.family_inj hs hf' hf'' hid']
          exact hbranch
        · obtain ⟨x, hx, heq⟩ := List.mem_map.mp hmem
          rw [← heq]
          exact hcarried x ((hment x).mp hx).1
        · obtain ⟨x, hx, heq⟩ := List.mem_map.mp hmem
          rw [← heq]
          exact hcarried x (h.table_subset hf x hx)
      · intro hmem
        obtain ⟨x, heq⟩ | ⟨f', hf', heq⟩ := h.node_cases hn hmem
        · rw [heq] at hmem ⊢
          by_cases htab : x ∈ f.table
          · exact Or.inr (List.mem_map_of_mem htab)
          by_cases hmemb : x ∈ f.members
          · exact Or.inl (Or.inr (List.mem_map_of_mem ((hment x).mpr ⟨hmemb, htab⟩)))
          · exact Or.inl (Or.inl (Or.inl (List.mem_map_of_mem ((hmout x).mpr ⟨hmem, hmemb⟩))))
        · rw [heq] at hmem
          refine Or.inl (Or.inl (Or.inr ⟨f', hf', (hmids _).mpr ⟨⟨f', hf', rfl, hmem⟩, ?_⟩, heq⟩))
          intro hid
          exact hclosed (h.family_inj hs hf' hf hid ▸ hmem)

end

/-! ## components -/

/-- the family of an actor contains the whole component of the actor -/
theorem family_component {d : DeclId} {order : List DeclId}
    (ho : inputs.domains.get d = some order) {c : Component DeclId}
    (hcomp : c ∈ inputs.graph.components (BTreeSet.ofList order)) {a b : DeclId}
    (ha : a ∈ c.members) (hb : b ∈ c.members) {f : FamilyPlan DeclId DeclId}
    (hf : f ∈ routes.families) (hmem : a ∈ f.members) : b ∈ f.members := by
  have hpart := components_spec inputs.graph (BTreeSet.ofList order)
  have horder : ∀ x ∈ c.members, x ∈ order := fun x hx =>
    BTreeSet.mem_ofList.mp (hpart.subset hcomp hx)
  obtain ⟨order', c', ho', hcomp', hof⟩ := h.family_site hf
  -- the actor owns one state, so both components belong to one domain
  have hd : f.domain = d := by
    obtain ⟨actor, hactor, hname, hstate⟩ := h.member_state hf hmem
    obtain ⟨actor', hactor', hname', hstate'⟩ := h.state_of_order ho (horder a ha)
    have heq : actor = actor' := List.inj_on_of_nodup_map app.distinct hactor hactor'
      (hname.trans hname'.symm)
    rw [← hstate, ← hstate', heq]
  rw [hd, ho] at ho'
  obtain rfl := Option.some.inj ho'
  obtain ⟨i, hi⟩ := List.mem_iff_getElem?.mp hcomp
  obtain ⟨j, hj⟩ := List.mem_iff_getElem?.mp hcomp'
  have hij := hpart.unique hi hj a ha (hof.mem_component hmem)
  rw [← hij, hi] at hj
  rw [hof.members, ← Option.some.inj hj]
  exact mem_orderedMembers.mpr ⟨horder b hb, hb⟩

theorem routeFamilyForActor_component {d : DeclId} {order : List DeclId}
    (ho : inputs.domains.get d = some order) {c : Component DeclId}
    (hcomp : c ∈ inputs.graph.components (BTreeSet.ofList order)) {a b : DeclId}
    (ha : a ∈ c.members) (hb : b ∈ c.members) :
    routeFamilyForActor plan a = routeFamilyForActor plan b := by
  unfold routeFamilyForActor
  rw [h.plan_families, List.find?_map, List.find?_map]
  congr 1
  refine List.find?_congr fun f hf => ?_
  exact decide_eq_decide.mpr
    ⟨h.family_component ho hcomp ha hb hf, h.family_component ho hcomp hb ha hf⟩

/-- the actors of one component have equal generated fields -/
theorem fields_component {d : DeclId} {order : List DeclId}
    (ho : inputs.domains.get d = some order) {c : Component DeclId}
    (hcomp : c ∈ inputs.graph.components (BTreeSet.ofList order)) {a b : DeclId}
    (ha : a ∈ c.members) (hb : b ∈ c.members) :
    generatedFieldsForActor app plan a = generatedFieldsForActor app plan b := by
  by_cases hab : a = b
  · rw [hab]
  have hcohort : c.members ∈ constraints.cohorts :=
    (h.planned.cohorts _).mpr ⟨(d, order), BTreeMap.mem_entries.mpr ho, ⟨d, order, c⟩,
      mem_sitesOf.mpr ⟨rfl, rfl, hcomp⟩, BTreeSet.one_lt_card ha hb hab, rfl⟩
  have horder : a ∈ order := BTreeSet.mem_ofList.mp
    ((components_spec inputs.graph (BTreeSet.ofList order)).subset hcomp ha)
  obtain ⟨actor, hactor, hname, _⟩ := h.state_of_order ho horder
  obtain ⟨nodes, hn⟩ := commitmentPlan_nodes h.planned.commitments a (hname ▸ h.actors hactor)
  obtain ⟨leaves, hla, hma⟩ := h.leaves hn.get
  obtain ⟨leaves', hlb, hmb⟩ := h.leaves (hn.members _ hcohort ha b hb).1
  rw [hma] at hmb
  unfold generatedFieldsForActor
  rw [hla, hlb, Except.ok.inj hmb, h.routeFamilyForActor_component ho hcomp ha hb]

theorem variant_component {actor : ActorModel} (ha : actor ∈ app.actors) {entry : EntryModel}
    (hentry : entry ∈ actor.entries) {selector : TemplateSelector}
    (hselector : selector ∈ entry.templateSelectors) {v : DeclId}
    (hv : .inApp v ∈ selector.targets) : ∃ d order c, inputs.domains.get d = some order ∧
      c ∈ inputs.graph.components (BTreeSet.ofList order) ∧ v ∈ c.members ∧
      actor.name ∈ c.members := by
  obtain ⟨r, hr, hdomain, hsource, htargets⟩ :=
    (h.collected.entries actor ha entry hentry).selectors selector hselector
  obtain ⟨e, he, p, hp, _, hsrc, hvariants⟩ := h.planned.selectors r hr
  obtain ⟨h1, h2, h3⟩ := mem_sitesOf.mp hp
  have hmem : v ∈ r.variants := by
    rw [htargets] at hv
    obtain ⟨w, hw, heq⟩ := List.mem_map.mp hv
    injection heq with heq
    rwa [← heq]
  rw [hsource] at hsrc
  exact ⟨_, _, _, BTreeMap.mem_entries.mp he, h3, hvariants v hmem, hsrc⟩

theorem fields_variant {actor : ActorModel} (ha : actor ∈ app.actors) {entry : EntryModel}
    (hentry : entry ∈ actor.entries) {selector : TemplateSelector}
    (hselector : selector ∈ entry.templateSelectors) {v : DeclId}
    (hv : .inApp v ∈ selector.targets) :
    generatedFieldsForActor app plan v = generatedFieldsForActor app plan actor.name := by
  obtain ⟨d, order, c, ho, hc, hmem, hsrc⟩ := h.variant_component ha hentry hselector hv
  exact h.fields_component ho hc hmem hsrc

theorem variant_selected {actor : ActorModel} (ha : actor ∈ app.actors) {entry : EntryModel}
    (hentry : entry ∈ actor.entries) {selector : TemplateSelector}
    (hselector : selector ∈ entry.templateSelectors) {v : DeclId}
    (hv : .inApp v ∈ selector.targets) : v ∈ app.actors.map (·.name) := by
  obtain ⟨d, order, c, ho, hc, hmem, _⟩ := h.variant_component ha hentry hselector hv
  have horder : v ∈ order := BTreeSet.mem_ofList.mp
    ((components_spec inputs.graph (BTreeSet.ofList order)).subset hc hmem)
  obtain ⟨model, hmodel, hname, _⟩ := h.state_of_order ho horder
  exact hname ▸ List.mem_map_of_mem hmodel

/-- **The generated fields of an actor stand for the nodes of its cut**, each once. -/
theorem fields_nodes (hs : validateGeneratedActorSuffixes app = .ok ()) {actor : ActorModel}
    (ha : actor ∈ app.actors) :
    ∃ fields nodes, generatedFieldsForActor app plan actor.name = .ok fields ∧
      routes.commitments.cutNodes actor.name = some nodes ∧ nodes.Nodup ∧
      (fields.flatMap (·.nodes routes)).Perm nodes := by
  obtain ⟨nodes, hn⟩ := commitmentPlan_nodes h.planned.commitments actor.name (h.actors ha)
  obtain ⟨leaves, hroute, hmap⟩ := h.leaves hn.get
  have hc := h.carriedLeaves hs hn.nodup hmap
  cases hown : routeFamilyForActor plan actor.name with
  | none =>
    obtain ⟨fields, hf, hperm⟩ := h.fields_plain hs hn hroute hc hown
    exact ⟨fields, nodes, hf, hn.get, hn.nodup, hperm⟩
  | some own =>
    have hmem := List.mem_of_find?_eq_some hown
    have hin := List.find?_some
      (p := fun family : RouteFamily => decide (actor.name ∈ family.actors)) hown
    rw [h.plan_families] at hmem
    obtain ⟨f, hf, heq⟩ := List.mem_map.mp hmem
    rw [← heq] at hown hin
    obtain ⟨fields, hfields, hperm⟩ := h.fields_own hs hn hroute hc hf (of_decide_eq_true hin) hown
    exact ⟨fields, nodes, hfields, hn.get, hn.nodup, hperm⟩

end Inferred

/-- the generated fields of an app against the planned cuts -/
structure CutFields (app : App) (plan : CompilerRoutePlan) (inputs : RouteInputs)
    (routes : RoutePlan DeclId DeclId) : Prop where
  /-- the fields of an actor stand for each node of its cut exactly once -/
  represented : ∀ actor ∈ app.actors, ∃ fields nodes,
    generatedFieldsForActor app plan actor.name = .ok fields ∧
      routes.commitments.cutNodes actor.name = some nodes ∧ nodes.Nodup ∧
      (fields.flatMap (·.nodes routes)).Perm nodes
  /-- the actors of one emit component have the same fields -/
  components : ∀ d order, inputs.domains.get d = some order →
    ∀ c ∈ inputs.graph.components (BTreeSet.ofList order), ∀ a ∈ c.members, ∀ b ∈ c.members,
      generatedFieldsForActor app plan a = generatedFieldsForActor app plan b
  /-- the variants of a selector have the fields of its source -/
  variants : ∀ actor ∈ app.actors, ∀ entry ∈ actor.entries,
    ∀ selector ∈ entry.templateSelectors, ∀ v, .inApp v ∈ selector.targets →
      generatedFieldsForActor app plan v = generatedFieldsForActor app plan actor.name

/-- **The generated part of a physical state is the planned cut**, with one layout for each emit
component. -/
theorem generatedFields_cut (app : App) (plan : CompilerRoutePlan)
    (h : inferDirectRoutes app = .ok plan) (hs : validateGeneratedActorSuffixes app = .ok ()) :
    ∃ inputs routes, routeInputs app = .ok inputs ∧
      routePlan inputs.graph inputs.domains inputs.selectors = .ok routes ∧
      CutFields app plan inputs routes := by
  obtain ⟨inputs, routes, constraints, hi⟩ := inferDirectRoutes_inferred h
  refine ⟨inputs, routes, hi.visited, hi.routed, fun actor ha => hi.fields_nodes hs ha,
    fun d order ho c hc a ha b hb => hi.fields_component ho hc ha hb,
    fun actor ha entry hentry selector hselector v hv =>
      hi.fields_variant ha hentry hselector hv⟩

/-! ## a sample -/

/-- an entry that emits one of some actors and sees others -/
def sampleEntry (name : String) (seen emits : List DeclId) : EntryModel where
  name := name
  kind := .leader
  current := {
    covenant := .current
    inputs := .empty
    outputs := ⟨[⟨"next", .static (emits.map .inApp), .one, .fromStart 0⟩], rfl⟩ }
  foreign := [{
    covenant := .existing ⟨"other"⟩
    inputs := ⟨[⟨"seen", .static (seen.map .inApp), .one, .fromStart 0⟩], rfl⟩
    outputs := .empty }]
  templateSelectors := []
  body := [.become (emits.map fun id => ⟨0, "next", .constructed (.fixed id) .one ⟨0⟩⟩)]
  analysis := _
  analyzed := rfl
  delegateEmits := nofun

/-- three pieces in a cycle, and a player who enters it and is seen by it -/
def sampleApp : App where
  name := "Game"
  actors := [
    ⟨"Rook", "Piece", [sampleEntry "move" [] ["King"]]⟩,
    ⟨"King", "Piece", [sampleEntry "move" ["Player"] ["Pawn"]]⟩,
    ⟨"Pawn", "Piece", [sampleEntry "move" [] ["Rook", "King"]]⟩,
    ⟨"Player", "Owner", [sampleEntry "join" [] ["Rook"]]⟩]
  distinct := by decide
  identifiers := by decide +kernel

theorem sampleApp_accepted : (inferDirectRoutes sampleApp).isOk = true := by decide +kernel

/-- a piece carries the player it sees, its gate and the table of the other pieces -/
example : (inferDirectRoutes sampleApp).bind (fun plan =>
      (generatedFieldsForActor sampleApp plan "King").map (List.map GeneratedField.name)) =
    .ok ["gen__player_template", "gen__rook_template", "gen__rook_routes"] := by
  decide +kernel

theorem generatedFields_cut_sample :
    ∃ plan inputs routes, routeInputs sampleApp = .ok inputs ∧
      routePlan inputs.graph inputs.domains inputs.selectors = .ok routes ∧
      CutFields sampleApp plan inputs routes := by
  obtain ⟨plan, h⟩ := exists_ok_of_isOk sampleApp_accepted
  exact ⟨plan, generatedFields_cut sampleApp plan h (by decide +kernel)⟩

end Argent.Model
