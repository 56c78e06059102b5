import Knot.Settings.EnvFile
import Knot.Settings.Options

/-!
Loading settings. Each field takes its raw value from the first of the arguments, the environment
and the file that gives one, and else its default. Either every field reads well and nothing is left
over, or the complaints come in the order of the fields, then of what is left over.
-/

namespace Knot.Settings

/-- Where raw values come from beside the arguments. -/
structure Sources where
  environment : Bindings String String := []
  file : Option String := none

/-- The variables of the file. -/
def Sources.entries (sources : Sources) : Bindings String (Option String) :=
  match sources.file with
  | none => []
  | some text => EnvFile.read sources.environment text

section

variable (o : Options)

/-- The entries by the names that they are compared by. Of several for one name the last counts. -/
def keyed {β : Type} (bindings : Bindings String β) : Bindings String β :=
  bindings.foldl (fun found (name, v) => found.assign (o.key name) v) []

/-- The variables with the texts that they are given, empty ones perhaps left out. -/
def textsGiven {β : Type} (isEmpty : β → Bool) (bindings : Bindings String β) : Bindings String β :=
  keyed o (bindings.filter fun (_, v) => !(o.skipEmpty && isEmpty v))

def environmentVariables (sources : Sources) : Bindings String String :=
  textsGiven o String.isEmpty sources.environment

def fileVariables (sources : Sources) : Bindings String (Option String) :=
  if o.readsFile then textsGiven o (· == some "") sources.entries else []

/-- The raw value that a text stands for. -/
def rawText (text : String) : Value := if o.nothing = some text then .none else .str text

/-- The raw value of a field. -/
def raw? (arguments : Bindings String Value) (sources : Sources) (field : Field) : Option Value :=
  match (keyed o arguments).lookup field.name with
  | some v => some v
  | none =>
      match (environmentVariables o sources).lookup (o.variableName field) with
      | some text => some (rawText o text)
      | none => ((fileVariables o sources).lookup (o.variableName field)).join.map (rawText o)

/-- The file's variables that set no field: those that are given a value and have not the bare name
of a field. -/
def unusedEntries (sources : Sources) : List String :=
  (fileVariables o sources).filterMap fun (name, v) =>
    if (v.getD "").isEmpty then none
    else if Field.all.any fun f => f.name == name || o.variableName f == name then none
    else some name

def unusedArguments (arguments : Bindings String Value) : List String :=
  arguments.keys.filter fun name => Field.all.all fun f => f.name != o.key name

end

/-- A field read from its raw value, or its default. -/
def field {α : Type} (raw : Field → Option Value) (field : Field) (standard : α)
    (read : Value → Except Problem α) : α × List Complaint :=
  match raw field with
  | none => (standard, [])
  | some v =>
      match read v with
      | .ok a => (a, [])
      | .error problem => (standard, [⟨field.name, problem⟩])

/-- The settings of arguments that set fields, loaded as the options say. -/
def loadWith (o : Options) (arguments : Bindings String Value) (sources : Sources) :
    Except (List Complaint) Settings :=
  let raw := raw? o arguments sources
  let limit := field raw .recursionLimit 2000 readRecursionLimit
  let headroom := field raw .exhaustionHeadroom 200 readExhaustionHeadroom
  let trace := field raw .trace false readFlag
  let demoN := field raw .demoN 6 readDemoN
  let unused := (unusedEntries o sources ++ unusedArguments o arguments).map (⟨·, .unexpected⟩)
  match limit.2 ++ headroom.2 ++ trace.2 ++ demoN.2 ++ unused with
  | [] => .ok ⟨limit.1, headroom.1, trace.1, demoN.1⟩
  | complaints => .error complaints

def load (arguments : Bindings String Value) (sources : Sources) :
    Except (List Complaint) Settings :=
  let (options, fields) := arguments.partition fun (name, _) => Options.names.contains name
  loadWith (.ofArguments options) fields sources

end Knot.Settings
