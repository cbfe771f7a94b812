import Argent.Model.StateLayout

/-!
# Names of state types

`render_sil_state_type` of `codegen/sil/state_boundary.rs` and the names in `codegen/sil/names.rs`: how a
planned state type is spelled in SIL.

* `hiddenActorStateTypeName`, `hiddenStorageStateTypeName`      the generated names;
* `renderSilStateType`      the spelling of a planned type.
-/

set_option linter.unusedSectionVars false

namespace Argent.Codegen
open Argent.Model

def RESERVED_GENERATED_TYPE_PREFIX : String := "Gen__"

/-- the parts between underscores, with their first characters in upper case -/
def toUpperCamel (input : String) : String :=
  let parts := (input.toList.splitOn '_').filter fun part => !part.isEmpty
  String.ofList (parts.flatMap fun part => match part with
    | [] => []
    | first :: chars => first.toUpper :: chars)

def hiddenActorStateTypeName (actor : String) : String :=
  RESERVED_GENERATED_TYPE_PREFIX ++ toUpperCamel actor ++ "State"

def hiddenStorageStateTypeName (state : String) : String :=
  RESERVED_GENERATED_TYPE_PREFIX ++ "Physical" ++ toUpperCamel state

def renderSilStateType (model : StateModel) : SilStateType → Except String String
  | .state => .ok "State"
  | .source source => .ok (model.asStr source)
  | .storagePhysical source => .ok (hiddenStorageStateTypeName (model.asStr source))
  | .targetPhysical (.actor (.inApp id)) => .ok (hiddenActorStateTypeName id)
  | .targetPhysical (.actor (.linked id)) => .ok (hiddenActorStateTypeName id.actor)
  | .targetPhysical (.openState state) => .ok (hiddenStorageStateTypeName (model.asStr state))
  | .targetPhysical (.actorDomain _ _) =>
    .error "actor-domain physical types are not valid input read targets"

end Argent.Codegen
