import Knot.Bindings
import Knot.Settings.Field

/-!
How settings are loaded: what the names of variables start with, whether their case matters, and
whether the file of variables is read. Arguments that start with an underscore can change it.
-/

namespace Knot.Settings

structure Options where
  start : String := "YCOMB_"
  exactCase : Bool := false
  skipEmpty : Bool := false
  readsFile : Bool := true
  /-- The text that stands for no value. -/
  nothing : Option String := none
  deriving DecidableEq, Repr

namespace Options

/-- The form in which names are compared. -/
def key (o : Options) (name : String) : String := if o.exactCase then name else Text.lowerCase name

/-- The name of the variable that sets a field. -/
def variableName (o : Options) (field : Field) : String := o.key (o.start ++ field.name)

/-- The arguments that are options, some of which have no effect here. -/
def names : List String := [
  "_case_sensitive", "_nested_model_default_partial_update", "_env_prefix", "_env_prefix_target",
  "_env_file", "_env_file_encoding", "_env_ignore_empty", "_env_nested_delimiter",
  "_env_nested_max_split", "_env_parse_none_str", "_env_parse_enums", "_cli_prog_name",
  "_cli_parse_args", "_cli_settings_source", "_cli_parse_none_str", "_cli_hide_none_type",
  "_cli_avoid_json", "_cli_enforce_required", "_cli_use_class_docs_for_groups",
  "_cli_exit_on_error", "_cli_prefix", "_cli_flag_prefix_char", "_cli_implicit_flags",
  "_cli_ignore_unknown_args", "_cli_kebab_case", "_cli_shortcuts", "_secrets_dir"]

/-- Whether a value names the file of variables. -/
def namesFile : Value → Bool
  | .str path => path == ".env"
  | .list _ paths | .tuple _ paths => paths.any fun path => match path with
      | .str path => path == ".env"
      | _ => false
  | _ => false

/-- The options with one of them set by an argument. -/
def set (o : Options) (name : String) (v : Value) : Options :=
  match name, v with
  | "_env_file", v => { o with readsFile := namesFile v }
  | "_env_prefix", .str start => { o with start }
  | "_env_parse_none_str", .str text => { o with nothing := some text }
  | "_case_sensitive", .bool b => { o with exactCase := b }
  | "_env_ignore_empty", .bool b => { o with skipEmpty := b }
  | _, _ => o

def ofArguments (arguments : Bindings String Value) : Options :=
  arguments.foldl (fun o (name, v) => o.set name v) {}

end Options

end Knot.Settings
