import PromptCanvas.Json.Value
import PromptCanvas.Keyed
import PromptCanvas.Text.Path

/-!
# Where settings are looked for

A setting is looked for among the overrides, then in the environment.  Some overrides are no
settings but switches, which say how the environment is looked through: what names start with there,
whether case counts, and which texts stand for nothing or for null.  A switch of another kind has no
bearing on what is found.
-/

namespace PromptCanvas
namespace Settings

/-- The names of the settings. -/
def names : List String := [
  "data_dir", "asset_db_name", "default_aspect_ratio", "node_width", "collapsed_height",
  "expanded_height", "collision_gap", "max_push_depth", "port_radius", "port_offset_y",
  "group_padding", "group_header_height", "min_zoom", "max_zoom", "zoom_step",
  "wheel_zoom_factor", "server_host", "server_port"]

def lowerCase (s : String) : String := String.ofList (s.toList.map Char.toLower)

/-! ## The environment -/

/-- Why a text cannot be set in an environment. -/
inductive EnvFault where
  /-- A half of a surrogate pair has no bytes. -/
  | noBytes
  /-- A text ends at its first null character, and a name at its first equals sign. -/
  | cutShort
  /-- There is no name. -/
  | nameless
deriving Repr, DecidableEq

/-- What stands against setting a text under a name. -/
def entryFault? (name text : String) : Option EnvFault :=
  if (Text.pathSize? name).isNone || (Text.pathSize? text).isNone then some .noBytes
  else if (name ++ text).toList.contains '\x00' || name.toList.contains '=' then some .cutShort
  else if name.isEmpty then some .nameless
  else none

/-- What stands against setting an environment, one text after the other. -/
def environmentFault? (env : List (String × String)) : Option EnvFault :=
  env.findSome? fun (name, text) => entryFault? name text

/-! ## Looking for settings -/

/-- How settings are looked for. -/
structure Lookup where
  /-- What the names in the environment start with. -/
  stem : String
  /-- Names count only as they are written. -/
  exact : Bool
  /-- An empty text in the environment counts as none. -/
  skipsEmpty : Bool
  /-- The text in the environment that stands for null. -/
  nullText : Option String

/-- Why settings are not looked for at all. -/
inductive LookupFault where
  /-- An override has the name of what it would be put into. -/
  | takenName
  /-- What names start with is no text. -/
  | stemNoText
deriving Repr, DecidableEq

namespace Lookup

/-- The switches among the overrides. -/
def switches : List String := [
  "_case_sensitive", "_nested_model_default_partial_update", "_env_prefix", "_env_prefix_target",
  "_env_file", "_env_file_encoding", "_env_ignore_empty", "_env_nested_delimiter",
  "_env_nested_max_split", "_env_parse_none_str", "_env_parse_enums", "_cli_prog_name",
  "_cli_parse_args", "_cli_settings_source", "_cli_parse_none_str", "_cli_hide_none_type",
  "_cli_avoid_json", "_cli_enforce_required", "_cli_use_class_docs_for_groups",
  "_cli_exit_on_error", "_cli_prefix", "_cli_flag_prefix_char", "_cli_implicit_flags",
  "_cli_ignore_unknown_args", "_cli_kebab_case", "_cli_shortcuts", "_secrets_dir",
  "_build_sources"]

/-- The name that no override can have. -/
def takenName : String := "self"

/-- What names start with unless a switch says otherwise. -/
def usualStem : String := "SHOTGRAPH_"

/-- Reads the switches among the overrides. -/
def ofOverrides (overrides : List (String × Json)) : Except LookupFault Lookup :=
  let switch (name : String) : Json := (Keyed.find? name overrides).getD .null
  let nullText := match switch "_env_parse_none_str" with
    | .str s => some s
    | _ => none
  let withStem (stem : String) : Lookup :=
    ⟨if switch "_env_prefix_target" == .str "alias" then "" else stem,
      (switch "_case_sensitive").truthy, (switch "_env_ignore_empty").truthy, nullText⟩
  if (Keyed.find? takenName overrides).isSome then .error .takenName
  else match switch "_env_prefix" with
    | .null => .ok (withStem usualStem)
    | .str stem => .ok (withStem stem)
    | _ => .error .stemNoText

/-- A name as it is compared. -/
def compared (l : Lookup) (name : String) : String := if l.exact then name else lowerCase name

/-- The overrides without the switches, and with the names of settings as they are spelled.  Of
several overrides of one setting the first counts. -/
def overridden (l : Lookup) (overrides : List (String × Json)) : List (String × Json) :=
  let others := overrides.filter fun (name, _) => !switches.contains name
  let named := others.map fun (name, j) =>
    if names.contains (l.compared name) then (l.compared name, j) else (name, j)
  named.foldl (fun o (name, j) => if (Keyed.find? name o).isSome then o else o ++ [(name, j)]) []

/-- A text of the environment. -/
def valueOf (l : Lookup) (text : String) : Json :=
  if l.nullText == some text then .null else .str text

/-- The settings that an environment gives. -/
def ofEnvironment (l : Lookup) (env : List (String × String)) : List (String × Json) :=
  Keyed.ofList <| env.filterMap fun (key, text) =>
    if l.skipsEmpty && text.isEmpty then none
    else (names.find? fun name => l.compared key == l.compared (l.stem ++ name)).map fun name =>
      (name, l.valueOf text)

/-- All settings that are given, by their names. -/
def given (l : Lookup) (env : List (String × String)) (overrides : List (String × Json)) :
    List (String × Json) :=
  Keyed.update (l.ofEnvironment env) (l.overridden overrides)

end Lookup
end Settings
end PromptCanvas
