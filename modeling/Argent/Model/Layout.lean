import Argent.Model.Routes

/-!
# Generated fields of a physical state

`compiler/model/layout.rs`: the compiler-owned part of an actor's physical state, and the check of
the generated names in `compiler/model/validate.rs`.

* `GeneratedField`               identity, name and type of one generated field;
* `generatedFieldsForActor`      templates, digests and the own route table of an actor;
* `validateGeneratedActorSuffixes`   no two actors share the suffix of their generated names.
-/

set_option linter.unusedSectionVars false

namespace Argent.Model

/-- compiler-owned meaning of one generated field -/
inductive GeneratedFieldId where
  | template (actor : DeclId)
  | routeFamilyDigest (app family : String)
  | routeFamilyTable (app family : String) (actors : List DeclId)
deriving DecidableEq, Repr

/-- a fixed array type, as generated fields have -/
structure FixedArrayType where
  element : String
  length : Nat
deriving DecidableEq, Repr

structure GeneratedField where
  id : GeneratedFieldId
  name : String
  type : FixedArrayType
deriving DecidableEq, Repr

/-- the route family that contains an actor -/
def routeFamilyForActor (plan : CompilerRoutePlan) (actor : DeclId) : Option RouteFamily :=
  plan.families.find? fun family => decide (actor ∈ family.actors)

/-- a route family by its artifact identity -/
def routeFamily (plan : CompilerRoutePlan) (id : String) : Option RouteFamily :=
  plan.families.find? fun family => decide (family.id = id)

def routeLeaves (plan : CompilerRoutePlan) (actor : DeclId) : Option (List RouteRootLeaf) :=
  (plan.leavesByActor.find? fun entry => decide (entry.1 = actor)).map Prod.snd

def templateField (app : App) (actor : DeclId) : Except String GeneratedField :=
  match app.actor? actor with
  | none => .error "unknown selected actor declaration identity"
  | some model =>
    .ok { id := .template actor, name := hiddenTemplateName model.name, type := ⟨"byte", 32⟩ }

def routeDigestField (app : App) (family : RouteFamily) : GeneratedField where
  id := .routeFamilyDigest app.name family.id
  name := hiddenRouteFamilyCommitmentName family.id
  type := ⟨"byte", 32⟩

def routeTableField (app : App) (family : RouteFamily) : GeneratedField where
  id := .routeFamilyTable app.name family.id family.tableActors
  name := hiddenRouteFamilyTableName family.id
  type := ⟨"byte", family.tableByteLen⟩

/-- the actors selected by a cut -/
def leafActors (leaves : List RouteRootLeaf) : List DeclId :=
  leaves.filterMap fun leaf => match leaf with
    | .actor actor => some actor
    | .family _ => none

/-- the families selected by a cut -/
def leafFamilies (leaves : List RouteRootLeaf) : List String :=
  leaves.filterMap fun leaf => match leaf with
    | .actor _ => none
    | .family family => some family

def routeCutDigestField (app : App) (plan : CompilerRoutePlan) (id : String) :
    Except String GeneratedField :=
  match routeFamily plan id with
  | none => .error s!"route cut references unknown family `{id}`"
  | some family => .ok (routeDigestField app family)

/-- The generated fields of an actor without an own family: its cut.  With an own family, the cut
outside it, then the members outside its table, then the table. -/
def generatedFieldsForActor (app : App) (plan : CompilerRoutePlan) (actor : DeclId) :
    Except String (List GeneratedField) :=
  match routeLeaves plan actor with
  | none => .error s!"actor `{actor}` has no planned route cut"
  | some leaves =>
    match routeFamilyForActor plan actor with
    | none => do
      let templates ← (leafActors leaves).mapM (templateField app)
      let digests ← (leafFamilies leaves).mapM (routeCutDigestField app plan)
      return templates ++ digests
    | some own => do
      let templates ← ((leafActors leaves).filter fun a => decide (a ∉ own.actors)).mapM
        (templateField app)
      let digests ← ((leafFamilies leaves).filter fun id => decide (id ≠ own.id)).mapM
        (routeCutDigestField app plan)
      let entries ← (own.actors.filter fun a => decide (a ∉ own.tableActors)).mapM
        (templateField app)
      return templates ++ digests ++ entries ++ [routeTableField app own]

/-- the actors after those whose suffixes were `seen` -/
def checkActorSuffixes : List (String × DeclId) → List DeclId → Except String Unit
  | _, [] => .ok ()
  | seen, actor :: actors =>
    let suffix := toSnake actor
    match seen.find? fun entry => decide (entry.1 = suffix) with
    | some (_, previous) =>
      .error s!"template actors `{previous}` and `{actor}` both map to generated suffix `{suffix}`"
    | none => checkActorSuffixes ((suffix, actor) :: seen) actors

def validateGeneratedActorSuffixes (app : App) : Except String Unit :=
  checkActorSuffixes [] (app.actors.map (·.name))

theorem checkActorSuffixes_ok {seen : List (String × DeclId)} {actors : List DeclId}
    (h : checkActorSuffixes seen actors = .ok ()) :
    (actors.map toSnake).Nodup ∧ ∀ actor ∈ actors, ∀ entry ∈ seen, entry.1 ≠ toSnake actor := by
  induction actors generalizing seen with
  | nil => exact ⟨List.nodup_nil, fun actor hmem => absurd hmem List.not_mem_nil⟩
  | cons actor actors ih =>
    unfold checkActorSuffixes at h
    dsimp only at h
    cases hfind : seen.find? fun entry => decide (entry.1 = toSnake actor) with
    | some entry => rw [hfind] at h; cases h
    | none =>
      rw [hfind] at h
      obtain ⟨hnd, hfresh⟩ := ih h
      have hseen : ∀ entry ∈ seen, entry.1 ≠ toSnake actor := by
        intro entry hmem heq
        exact List.find?_eq_none.mp hfind entry hmem (decide_eq_true heq)
      refine ⟨List.nodup_cons.mpr ⟨fun hmem => ?_, hnd⟩, fun a ha entry hentry => ?_⟩
      · obtain ⟨b, hb, heq⟩ := List.mem_map.mp hmem
        exact hfresh b hb _ List.mem_cons_self heq.symm
      · obtain ha | ha := List.mem_cons.mp ha
        · rw [ha]
          exact hseen entry hentry
        · exact hfresh a ha entry (List.mem_cons_of_mem _ hentry)

/-- distinct actors have distinct suffixes -/
theorem toSnake_inj_of_validate {app : App} (h : validateGeneratedActorSuffixes app = .ok ())
    {a b : DeclId} (ha : a ∈ app.actors.map (·.name)) (hb : b ∈ app.actors.map (·.name))
    (heq : toSnake a = toSnake b) : a = b :=
  List.inj_on_of_nodup_map (checkActorSuffixes_ok h).1 ha hb heq

end Argent.Model
