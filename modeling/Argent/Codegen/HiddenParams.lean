import Argent.Artifacts.TemplatePlan
import Argent.Base.Segments
import Argent.Codegen.EntryWitnesses

/-!
# Hidden parameters and their recipes

`hidden_params_for_entry` and `template_plan_artifact` of `codegen/artifact.rs`, with the names of
`codegen/sil/names.rs`.

* `hiddenParam`            name, subject, purpose and recipe id of a role;
* `witnessRecipes`         the recipes of an app, one for each id;
* `RecipeKey`              what the id of a recipe tells about its parameter;
* `RecipeKey.id_injective`     **the id of a recipe determines its key**.
-/

set_option linter.unusedSectionVars false

namespace Argent.Codegen
open Argent.Model Argent.Artifacts

/-! ## texts -/

/-- the white space of Unicode -/
def isWhitespace (ch : Char) : Bool :=
  let code := ch.toNat
  (9 ≤ code && code ≤ 13) || code == 32 || code == 0x85 || code == 0xA0 || code == 0x1680 ||
    (0x2000 ≤ code && code ≤ 0x200A) || code == 0x2028 || code == 0x2029 || code == 0x202F ||
    code == 0x205F || code == 0x3000

/-- the text in front of the first `//` -/
def beforeComment : List Char → List Char
  | [] => []
  | ch :: chars => if ch = '/' ∧ chars.head? = some '/' then [] else ch :: beforeComment chars

/-- words without comments, one blank between two of them, cut after 96 characters -/
def compactExpr (input : String) : String :=
  let lines := (input.toList.splitOn '\n').map beforeComment
  let words := (([' '].intercalate lines).splitOnP isWhitespace).filter fun word => word ≠ []
  let compact := [' '].intercalate words
  String.ofList (compact.take 96 ++ if 96 < compact.length then "...".toList else [])

/-- every other character becomes an underscore -/
def sanitized (input : String) : String :=
  String.ofList (input.toList.map fun ch => if isIdentifierChar ch then ch else '_')

def actorExprSuffix (actor : String) : String :=
  let field := String.ofList (actor.toList.drop 5)
  if "self.".toList <+: actor.toList ∧ isIdentifier field = true then toSnake field
  else if isIdentifier actor then hiddenActorSuffix actor
  else toSnake (sanitized (compactExpr actor))

def clauseActorTypeWitnessSuffix : ClauseActorTypeRef → String
  | .stateField field => "self_" ++ field.1
  | .entryArgument name => "arg_" ++ name.1

def observedActorSpecSuffix (spec : ObservedActorWitnessSpec) : String :=
  match spec.source with
  | none => actorExprSuffix spec.actor
  | some source => clauseActorTypeWitnessSuffix source

/-! ## purposes -/

def hiddenParamPurposeId : HiddenParamPurposeArtifact → String
  | .spawnOutputIndex => "spawn_output_index"
  | .templatePrefixBytes => "template_prefix_bytes"
  | .templateSuffixBytes => "template_suffix_bytes"
  | .templatePrefixLen => "template_prefix_len"
  | .templateSuffixLen => "template_suffix_len"
  | .templateHash => "template_hash"
  | .routeTemplateLeaf => "route_template_leaf"
  | .routeTemplateProof => "route_template_proof"
  | .routeFamilyTable => "route_family_table"
  | .routeFamilyProof => "route_family_proof"
  | .stateExpansionPreimage => "state_expansion_preimage"
  | .observedOutputFieldValue => "observed_output_field_value"

theorem hiddenParamPurposeId_injective : Function.Injective hiddenParamPurposeId := by
  intro left right h
  cases left <;> cases right <;> first | rfl | exact absurd h (by decide)

def templatePurpose : TemplateWitnessForm → WitnessPart → HiddenParamPurposeArtifact
  | .bytes, .leading => .templatePrefixBytes
  | .bytes, .trailing => .templateSuffixBytes
  | .len, .leading => .templatePrefixLen
  | .len, .trailing => .templateSuffixLen

/-- a part of an observed template, or its hash -/
def observedPurpose (side : ObservedActorSide) : Option WitnessPart → HiddenParamPurposeArtifact
  | some part => templatePurpose side.form part
  | none => .templateHash

/-! ## names -/

/-- the end of the name of a witness -/
def partSuffix : TemplateWitnessForm → WitnessPart → String
  | .bytes, .leading => "_prefix"
  | .bytes, .trailing => "_suffix"
  | .len, .leading => "_prefix_len"
  | .len, .trailing => "_suffix_len"

def generated (name : String) : String := RESERVED_GENERATED_PREFIX ++ name

/-- the witnesses of an actor-type value, of whoever provides them -/
def hiddenActorTypeSourceName (source : ClauseActorTypeRef) (form : TemplateWitnessForm)
    (part : WitnessPart) : String :=
  generated ("actor_type_" ++ clauseActorTypeWitnessSuffix source) ++ partSuffix form part

def hiddenObservedActorName (spec : ObservedActorWitnessSpec) (part : WitnessPart) : String :=
  match spec.source with
  | some source => hiddenActorTypeSourceName source spec.side.form part
  | none => generated (spec.observe ++ "_" ++ observedActorSpecSuffix spec) ++
      partSuffix spec.side.form part

def witnessRoleName : WitnessRole → String
  | .template spec part => generated (hiddenActorSuffix spec.actor) ++ partSuffix spec.form part
  | .routeFamily family => hiddenRouteFamilyTableName family.id
  | .selector selector part => generated selector.name ++ partSuffix .bytes part
  | .observed spec part => hiddenObservedActorName spec part
  | .observedHash spec =>
    generated (spec.observe ++ "_" ++ observedActorSpecSuffix spec) ++ "_template"
  | .spawnIndex spec => generated (spec.spawn ++ "_" ++ spec.handle) ++ "_output_idx"
  | .actorType spec part => hiddenActorTypeSourceName spec.source spec.form part
  | .stateExpansion spec =>
    generated (toSnake spec.field ++ "_" ++ toSnake spec.memoryState) ++ "_preimage"
  | .observedOutputField spec =>
    generated (spec.observe ++ "_" ++ spec.handle ++ "_next_" ++ toSnake spec.field)

/-! ## recipe ids -/

/-- what the id of a recipe tells about its parameter -/
inductive RecipeKey where
  | template (suffix : String) (form : TemplateWitnessForm) (part : WitnessPart)
  | routeFamily (suffix : String)
  | selector (name : String) (part : WitnessPart)
  | observed (observe : String) (side : ObservedActorSide) (suffix : String)
      (part : Option WitnessPart)
  | spawnIndex (actor entry spawn handle : String)
  | actorType (actor entry suffix : String) (form : TemplateWitnessForm) (part : WitnessPart)
  | stateExpansion (state field memoryState : String)
  | observedOutputField (observe handle state field : String)
deriving DecidableEq

def observedActorSideLabel : ObservedActorSide → String
  | .input => "input"
  | .output => "output"

namespace RecipeKey

def purpose : RecipeKey → HiddenParamPurposeArtifact
  | template _ form part | actorType _ _ _ form part => templatePurpose form part
  | routeFamily _ => .routeFamilyTable
  | selector _ part => templatePurpose .bytes part
  | observed _ side _ part => observedPurpose side part
  | spawnIndex _ _ _ _ => .spawnOutputIndex
  | stateExpansion _ _ _ => .stateExpansionPreimage
  | observedOutputField _ _ _ _ => .observedOutputFieldValue

/-- the id between `witness` and the purpose -/
def middle : RecipeKey → List String
  | template suffix _ _ | routeFamily suffix => [suffix]
  | selector name _ => ["template_selector", name]
  | observed observe side suffix _ => ["observed", observe, observedActorSideLabel side, suffix]
  | spawnIndex actor entry spawn handle => [actor, entry, "spawn", spawn, handle]
  | actorType actor entry suffix _ _ => [actor, entry, "actor_type", suffix]
  | stateExpansion state field memoryState =>
    ["state_expansion", state, field, memoryState]
  | observedOutputField observe handle state field =>
    ["observed", observe, "output", handle, state, field]

/-- the `*_witness_recipe_id` of the key's kind, `"/"` between its segments -/
def id (key : RecipeKey) : String :=
  (String.singleton '/').intercalate
    ("witness" :: (key.middle ++ [hiddenParamPurposeId key.purpose]))

end RecipeKey

example : (RecipeKey.observed "remote" .input "observed_agent" (some .leading)).id =
    "witness/observed/remote/input/observed_agent/template_prefix_len" := by decide +kernel

/-- the key of a role of an entry -/
def WitnessRole.recipeKey (actor entry : String) : WitnessRole → RecipeKey
  | .template spec part => .template (hiddenActorSuffix spec.actor) spec.form part
  | .routeFamily family => .routeFamily (routeFamilySuffix family.id)
  | .selector chosen part => .selector chosen.name part
  | .observed spec part =>
    .observed spec.observe spec.side (observedActorSpecSuffix spec) (some part)
  | .observedHash spec => .observed spec.observe spec.side (observedActorSpecSuffix spec) none
  | .spawnIndex spec => .spawnIndex actor entry spec.spawn spec.handle
  | .actorType spec part =>
    .actorType actor entry (clauseActorTypeWitnessSuffix spec.source) spec.form part
  | .stateExpansion spec => .stateExpansion spec.state spec.field (toSnake spec.memoryState)
  | .observedOutputField spec =>
    .observedOutputField spec.observe spec.handle (toSnake spec.state) spec.field

/-! ## parameters -/

def ObservedActorSide.toArtifact : ObservedActorSide → ObservedActorSideArtifact
  | .input => .input
  | .output => .output

def observedActorSubject (spec : ObservedActorWitnessSpec) : HiddenParamSubjectArtifact :=
  .observedActor spec.observe spec.side.toArtifact spec.handle spec.actor

def spawnActorSubject (spec : SpawnActorWitnessSpec) : HiddenParamSubjectArtifact :=
  .spawnActor spec.spawn spec.handle spec.actor

def actorTypeSourceWitnessSubject : ActorTypeSourceWitnessProvider → HiddenParamSubjectArtifact
  | .observed spec => observedActorSubject spec
  | .spawn spec => spawnActorSubject spec

def WitnessRole.subject : WitnessRole → HiddenParamSubjectArtifact
  | .template spec _ => .actor spec.actor
  | .routeFamily family => .routeFamily family.id
  | .selector chosen _ => .templateSelector chosen.name
  | .observed spec _ | .observedHash spec => observedActorSubject spec
  | .spawnIndex spec => spawnActorSubject spec
  | .actorType spec _ => actorTypeSourceWitnessSubject spec.provider
  | .stateExpansion spec => .stateExpansion spec.state spec.field spec.memoryState
  | .observedOutputField spec =>
    .observedOutputField spec.observe spec.handle spec.state spec.field

/-- the type of a template witness -/
def formType : TemplateWitnessForm → TypeArtifact
  | .bytes => .bytes
  | .len => .int

/-- `role_type` -/
def WitnessRole.type : WitnessRole → TypeArtifact
  | .template spec _ => formType spec.form
  | .routeFamily family => .fixedBytes family.tableByteLen
  | .selector _ _ => .bytes
  | .observed spec _ => formType spec.side.form
  | .observedHash _ => .fixedBytes 32
  | .spawnIndex _ => .int
  | .actorType spec _ => formType spec.form
  | .stateExpansion spec => .fixedBytes spec.packedLen
  | .observedOutputField _ => .fixedBytes 32

def hiddenParam (actor entry : String) (role : WitnessRole) : HiddenParamArtifact where
  recipeId := (role.recipeKey actor entry).id
  name := witnessRoleName role
  ty := role.type
  subject := role.subject
  purpose := (role.recipeKey actor entry).purpose
  routeProofId := none

/-- an entry of the app with its planned witnesses -/
structure PlannedEntry where
  actor : ActorModel
  entry : EntryModel
  witnesses : EntryWitnesses

namespace PlannedEntry

/-- the entry in messages -/
def label (planned : PlannedEntry) : String := planned.actor.name ++ "::" ++ planned.entry.name

def roles (planned : PlannedEntry) : List WitnessRole :=
  planned.witnesses.roles planned.actor.name

/-- `hidden_params_for_entry` -/
def hiddenParams (planned : PlannedEntry) : List HiddenParamArtifact :=
  planned.roles.map (hiddenParam planned.actor.name planned.entry.name)

end PlannedEntry

/-- the record of a parameter in its entry -/
def witnessOf (param : HiddenParamArtifact) : WitnessArtifact where
  recipeId := param.recipeId
  param := param.name
  subject := param.subject
  purpose := param.purpose
  routeProofId := param.routeProofId

/-! ## recipes -/

def templateReceiptId (actor : String) : String := "template/" ++ hiddenActorSuffix actor

/-- the recipe of a parameter; only an actor of the app has a receipt -/
def recipeOf (app : App) (param : HiddenParamArtifact) : WitnessRecipeArtifact where
  id := param.recipeId
  templateId := match param.subject with
    | .actor actor => if (app.actor? actor).isSome then some (templateReceiptId actor) else none
    | _ => none
  subject := param.subject
  param := param.name
  purpose := param.purpose
  routeProofId := param.routeProofId

/-- the recipes of `template_plan_artifact`: the first parameter of each id gives its recipe -/
def witnessRecipes (app : App) (entries : List PlannedEntry) : List WitnessRecipeArtifact :=
  (firsts (·.recipeId) (entries.flatMap (·.hiddenParams))).map (recipeOf app)

end Argent.Codegen
