import Argent.Base.Index
import Argent.Codegen.HiddenParams
import Argent.Model.RoutesSound
import Argent.Model.Validate
import Mathlib.Data.List.TakeWhile

/-!
# Recipes name their parameters

Two hidden parameters with one recipe id are checked against one recipe, so they must be the same
parameter.

* `SlashFree`              the segments of recipe ids;
* `RecipeKey.id_injective`     **the key can be read off the id**;
* `WitnessApp`             an app with what its clauses are bound to;
* `RecipesFaithful`        equal ids are ids of equal parameters;
* `RecipesSeparated`       what the ids leave out is determined by what they tell.
-/

set_option linter.unusedSectionVars false

namespace Argent.Codegen
open Argent.Model Argent.Artifacts Argent.Fallible

/-! ## segments -/

/-- a segment of a recipe id -/
def SlashFree (text : String) : Prop := '/' ∉ text.toList

instance (text : String) : Decidable (SlashFree text) := inferInstanceAs (Decidable (_ ∉ _))

theorem slashFree_of_isIdentifier {text : String} (h : isIdentifier text = true) :
    SlashFree text :=
  fun hmem => absurd (isIdentifierChar_of_isIdentifier h '/' hmem) (by decide)

theorem slashFree_toSnake {text : String} (h : SlashFree text) : SlashFree (toSnake text) := by
  intro hmem
  refine forall_toSnake (P := fun ch => ch ≠ '/') (by decide) (fun ch hupper heq => ?_)
    (fun ch hch _ heq => h (heq ▸ hch)) '/' hmem rfl
  have hlower := isLower_toLower hupper
  rw [heq] at hlower
  exact absurd hlower (by decide)

theorem slashFree_sanitized (text : String) : SlashFree (sanitized text) := by
  intro hmem
  rw [sanitized, String.toList_ofList] at hmem
  obtain ⟨ch, _, hch⟩ := List.mem_map.mp hmem
  split_ifs at hch with hkeep
  · rw [hch] at hkeep
    exact absurd hkeep (by decide)
  · exact absurd hch (by decide)

theorem slashFree_hiddenActorSuffix (actor : String) : SlashFree (hiddenActorSuffix actor) :=
  slashFree_toSnake (slashFree_sanitized actor)

theorem slashFree_actorExprSuffix (actor : String) : SlashFree (actorExprSuffix actor) := by
  unfold actorExprSuffix
  refine iteInduction (fun hfield => ?_) fun _ => iteInduction (fun _ => ?_) fun _ => ?_
  · exact slashFree_toSnake (slashFree_of_isIdentifier hfield.2)
  · exact slashFree_hiddenActorSuffix actor
  · exact slashFree_toSnake (slashFree_sanitized _)

theorem slashFree_routeFamilySuffix (family : String) : SlashFree (routeFamilySuffix family) := by
  refine slashFree_toSnake fun hmem => ?_
  rw [String.toList_ofList, List.mem_reverse] at hmem
  have hslash := List.mem_takeWhile_imp hmem
  exact absurd hslash (by decide)

theorem slashFree_append {left right : String} (h : SlashFree left) (h' : SlashFree right) :
    SlashFree (left ++ right) := by
  intro hmem
  rw [String.toList_append] at hmem
  exact (List.mem_append.mp hmem).elim h h'

theorem slashFree_clauseActorTypeWitnessSuffix (source : ClauseActorTypeRef) :
    SlashFree (clauseActorTypeWitnessSuffix source) := by
  cases source with
  | stateField field =>
    exact slashFree_append (by decide) (slashFree_of_isIdentifier field.2)
  | entryArgument name => exact slashFree_append (by decide) (slashFree_of_isIdentifier name.2)

theorem slashFree_observedActorSpecSuffix (spec : ObservedActorWitnessSpec) :
    SlashFree (observedActorSpecSuffix spec) := by
  unfold observedActorSpecSuffix
  split
  · exact slashFree_actorExprSuffix _
  · exact slashFree_clauseActorTypeWitnessSuffix _

theorem slashFree_hiddenParamPurposeId (purpose : HiddenParamPurposeArtifact) :
    SlashFree (hiddenParamPurposeId purpose) := by
  cases purpose <;> decide

/-! ## keys -/

theorem templatePurpose_inj {form form' : TemplateWitnessForm} {part part' : WitnessPart}
    (h : templatePurpose form part = templatePurpose form' part') : form = form' ∧ part = part' := by
  cases form <;> cases form' <;> cases part <;> cases part' <;>
    first
    | exact ⟨rfl, rfl⟩
    | cases h

theorem observedPurpose_inj {side : ObservedActorSide} {part part' : Option WitnessPart}
    (h : observedPurpose side part = observedPurpose side part') : part = part' := by
  cases part with
  | none =>
    cases part' with
    | none => rfl
    | some part' => cases side <;> cases part' <;> cases h
  | some part =>
    cases part' with
    | none => cases side <;> cases part <;> cases h
    | some part' => rw [(templatePurpose_inj h).2]

theorem templatePurpose_ne (form : TemplateWitnessForm) (part : WitnessPart) :
    templatePurpose form part ≠ .routeFamilyTable ∧
      templatePurpose form part ≠ .stateExpansionPreimage := by
  cases form <;> cases part <;> decide

theorem observedPurpose_ne (side : ObservedActorSide) (part : Option WitnessPart) :
    observedPurpose side part ≠ .stateExpansionPreimage := by
  cases part with
  | none => nofun
  | some part => exact (templatePurpose_ne side.form part).2

theorem observedActorSideLabel_ne (side : ObservedActorSide) :
    observedActorSideLabel side ≠ "actor_type" := by
  cases side <;> decide

theorem observedActorSideLabel_injective : Function.Injective observedActorSideLabel := by
  intro side side' h
  cases side <;> cases side' <;> first | rfl | exact absurd h (by decide)

namespace RecipeKey

/-- the segments and the purpose determine the key -/
theorem eq_of_middle {key key' : RecipeKey} (hmiddle : key.middle = key'.middle)
    (hpurpose : key.purpose = key'.purpose) : key = key' := by
  cases key with
  | template suffix form part =>
    cases key' with
    | template suffix' form' part' =>
      obtain ⟨rfl, rfl⟩ := templatePurpose_inj hpurpose
      obtain rfl := List.singleton_inj.mp hmiddle
      rfl
    | routeFamily _ => exact absurd hpurpose (templatePurpose_ne _ _).1
    | _ => exact absurd (congrArg List.length hmiddle) (by simp [middle])
  | routeFamily suffix =>
    cases key' with
    | routeFamily suffix' =>
      obtain rfl := List.singleton_inj.mp hmiddle
      rfl
    | template _ _ _ => exact absurd hpurpose.symm (templatePurpose_ne _ _).1
    | _ => exact absurd (congrArg List.length hmiddle) (by simp [middle])
  | selector name part =>
    cases key' with
    | selector name' part' =>
      obtain rfl := (templatePurpose_inj hpurpose).2
      cases hmiddle
      rfl
    | _ => exact absurd (congrArg List.length hmiddle) (by simp [middle])
  | observed observe side suffix part =>
    cases key' with
    | observed observe' side' suffix' part' =>
      simp only [middle, List.cons.injEq] at hmiddle
      obtain ⟨-, rfl, hside, rfl, -⟩ := hmiddle
      obtain rfl := observedActorSideLabel_injective hside
      obtain rfl := observedPurpose_inj hpurpose
      rfl
    | actorType _ _ _ _ _ =>
      simp only [middle, List.cons.injEq] at hmiddle
      exact absurd hmiddle.2.2.1 (observedActorSideLabel_ne side)
    | stateExpansion _ _ _ => exact absurd hpurpose (observedPurpose_ne _ _)
    | _ => exact absurd (congrArg List.length hmiddle) (by simp [middle])
  | spawnIndex actor entry spawn handle =>
    cases key' with
    | spawnIndex _ _ _ _ =>
      cases hmiddle
      rfl
    | _ => exact absurd (congrArg List.length hmiddle) (by simp [middle])
  | actorType actor entry suffix form part =>
    cases key' with
    | actorType actor' entry' suffix' form' part' =>
      obtain ⟨rfl, rfl⟩ := templatePurpose_inj hpurpose
      cases hmiddle
      rfl
    | observed _ side _ _ =>
      simp only [middle, List.cons.injEq] at hmiddle
      exact absurd hmiddle.2.2.1.symm (observedActorSideLabel_ne side)
    | stateExpansion _ _ _ => exact absurd hpurpose (templatePurpose_ne _ _).2
    | _ => exact absurd (congrArg List.length hmiddle) (by simp [middle])
  | stateExpansion state field memoryState =>
    cases key' with
    | stateExpansion _ _ _ =>
      cases hmiddle
      rfl
    | observed _ _ _ _ => exact absurd hpurpose.symm (observedPurpose_ne _ _)
    | actorType _ _ _ _ _ => exact absurd hpurpose.symm (templatePurpose_ne _ _).2
    | _ => exact absurd (congrArg List.length hmiddle) (by simp [middle])
  | observedOutputField observe handle state field =>
    cases key' with
    | observedOutputField _ _ _ _ =>
      cases hmiddle
      rfl
    | _ => exact absurd (congrArg List.length hmiddle) (by simp [middle])

/-- no segment of the key contains the separator -/
def Named (key : RecipeKey) : Prop := ∀ segment ∈ key.middle, SlashFree segment

/-- **the key can be read off the id** -/
theorem id_injective {key key' : RecipeKey} (h : key.Named) (h' : key'.Named)
    (hid : key.id = key'.id) : key = key' := by
  have hfree : ∀ {key : RecipeKey}, key.Named →
      ∀ segment ∈ "witness" :: (key.middle ++ [hiddenParamPurposeId key.purpose]),
        '/' ∉ segment.toList := by
    intro key h segment hsegment
    obtain rfl | hsegment := List.mem_cons.mp hsegment
    · decide
    · obtain hsegment | hsegment := List.mem_append.mp hsegment
      · exact h segment hsegment
      · rw [List.mem_singleton.mp hsegment]
        exact slashFree_hiddenParamPurposeId _
  have hsegments := intercalate_injective (List.cons_ne_nil _ _) (List.cons_ne_nil _ _)
    (hfree h) (hfree h') hid
  obtain ⟨hmiddle, hpurpose⟩ := List.append_inj' (List.cons.inj hsegments).2 rfl
  exact eq_of_middle hmiddle
    (hiddenParamPurposeId_injective (List.singleton_inj.mp hpurpose))

end RecipeKey

/-! ## apps -/

/-- the spawned outputs of an entry -/
def spawnHandles (entry : EntryModel) : List (String × String) :=
  entry.genesisGroups.flatMap fun group =>
    group.2.outputs.items.map fun output => (group.1.name, output.handle)

/-- the names that an entry gives to its state, its clauses and their actors -/
def entryNames (actor : ActorModel) (entry : EntryModel) : List String :=
  [actor.state, entry.name] ++ entry.templateSelectors.map (·.name) ++
    entry.existingGroups.flatMap (fun group =>
      group.1.name :: (group.2.inputs.items ++ group.2.outputs.items).map (·.handle)) ++
    entry.genesisGroups.flatMap fun group =>
      group.1.name :: group.2.outputs.items.map (·.handle)

/-- An app that passes validation, with what its clauses are bound to and the expansions of its
states: entries, spawned outputs and expanded fields are declared once. -/
structure WitnessApp extends CompiledApp where
  /-- of the clauses of an entry, by actor, entry and clause -/
  bindings : DeclId → String → String → ClauseBindings
  digests : DeclId → List DigestExpansion
  digests_nodup : ∀ state, ((digests state).map (·.field)).Nodup
  entries_nodup : ∀ actor ∈ actors, (actor.entries.map (·.name)).Nodup
  spawns_nodup : ∀ actor ∈ actors, ∀ entry ∈ actor.entries, (spawnHandles entry).Nodup
  named : ∀ actor ∈ actors, ∀ entry ∈ actor.entries, ∀ name ∈ entryNames actor entry,
    isIdentifier name = true

namespace WitnessApp
variable (app : WitnessApp)

def planEntry (site : ActorModel × EntryModel) : Except String PlannedEntry := do
  let witnesses ← entryWitnesses (app.bindings site.1.name site.2.name) site.2 app.toApp app.plan
    site.1 (app.digests site.1.state)
  return ⟨site.1, site.2, witnesses⟩

/-- the entries of the app with their witnesses, in app order -/
def plannedEntries : Except String (List PlannedEntry) :=
  (app.actors.flatMap fun actor => actor.entries.map fun entry => (actor, entry)).mapM app.planEntry

end WitnessApp

/-- the templates that an entry passes -/
def PlannedEntry.passedTemplates (planned : PlannedEntry) : List TemplateWitnessSpec :=
  planned.witnesses.templates.filter fun spec => decide (spec.id ≠ .inApp planned.actor.name)

/-- the recipes by their ids, as the artifact check reads them -/
def indexRecipes (check : WitnessRecipeArtifact → PlanCheck PUnit)
    (recipes : List WitnessRecipeArtifact) : PlanCheck (BTreeMap String WitnessRecipeArtifact) :=
  indexUnique (·.id) (fun recipe => .error (.duplicateWitnessRecipeId recipe.id)) check recipes

/-- Recipes tell the parameters apart: equal ids are ids of equal parameters, there is one recipe
for each id, the artifact check finds the recipe of every parameter, and no recipe is left over. -/
structure RecipesFaithful (app : App) (entries : List PlannedEntry) : Prop where
  identified : ∀ param ∈ entries.flatMap (·.hiddenParams),
    ∀ other ∈ entries.flatMap (·.hiddenParams), param.recipeId = other.recipeId →
      param.name = other.name ∧ param.subject = other.subject ∧ param.purpose = other.purpose ∧
        param.routeProofId = other.routeProofId
  distinct : ((witnessRecipes app entries).map (·.id)).Nodup
  accepted : ∀ check byId, indexRecipes check (witnessRecipes app entries) = .ok byId →
    ∀ planned ∈ entries, ∀ param ∈ planned.hiddenParams,
      checkHiddenParam byId planned.label param = .ok ⟨⟩ ∧
        checkEntryWitness byId planned.label (witnessOf param) = .ok ⟨⟩
  used : ∀ recipe ∈ witnessRecipes app entries, ∃ planned ∈ entries,
    ∃ param ∈ planned.hiddenParams, recipe = recipeOf app param

/-- What the ids leave out is determined by what they tell: no two actors with passed templates have
one generated suffix, no two observed actors have one observe root, side and suffix, and no two
states of virtual output fields differ only in their case. -/
structure RecipesSeparated (entries : List PlannedEntry) : Prop where
  templates : ∀ p ∈ entries, ∀ q ∈ entries, ∀ s ∈ p.passedTemplates, ∀ t ∈ q.passedTemplates,
    s.form = t.form → hiddenActorSuffix s.actor = hiddenActorSuffix t.actor → s.actor = t.actor
  observed : ∀ p ∈ entries, ∀ q ∈ entries, ∀ s ∈ p.witnesses.observedActors,
    ∀ t ∈ q.witnesses.observedActors, s.observe = t.observe → s.side = t.side →
      observedActorSpecSuffix s = observedActorSpecSuffix t →
        s.handle = t.handle ∧ s.actor = t.actor
  outputFields : ∀ p ∈ entries, ∀ q ∈ entries, ∀ s ∈ p.witnesses.observedOutputFields,
    ∀ t ∈ q.witnesses.observedOutputFields, s.observe = t.observe → s.handle = t.handle →
      s.field = t.field → toSnake s.state = toSnake t.state → s.state = t.state

end Argent.Codegen
