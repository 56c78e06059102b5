import Knot.Settings.Cache
import Mathlib.Data.List.Basic

/-!
Loading settings. Whatever sets them, loaded settings keep their floors. Where nothing but the fields is
set, and each in one spelling, every field is judged by itself: by the first of the arguments, the
environment and the file that sets it, and whatever the others say.
-/

namespace Knot.Settings

/-! Names in any letter case. -/

section

variable {β : Type}

/-- The bindings of a name, whatever case it is spelled in. -/
def spellings (bindings : Bindings String β) (name : String) : Bindings String β :=
  bindings.filter fun binding => Text.lowerCase binding.1 == name

/-- What is bound to a name, whatever case it is spelled in. -/
def spelled? (bindings : Bindings String β) (name : String) : Option β :=
  (spellings bindings name).head?.map (·.2)

theorem spellings_cons (binding : String × β) (rest : Bindings String β) (name : String) :
    spellings (binding :: rest) name =
      (if Text.lowerCase binding.1 == name then [binding] else []) ++ spellings rest name := by
  unfold spellings
  rw [List.filter_cons]
  split <;> rfl

theorem keyed_eq (bindings : Bindings String β) :
    keyed {} bindings = bindings.foldl
      (fun found binding => Bindings.assign (Text.lowerCase binding.1) binding.2 found) [] := rfl

/-- Of several spellings the last one counts. -/
theorem lookup_keyed (bindings : Bindings String β) (name : String) :
    (keyed {} bindings).lookup name = (spellings bindings name).getLast?.map (·.2) := by
  have along (found : Bindings String β) :
      (bindings.foldl (fun found binding =>
        Bindings.assign (Text.lowerCase binding.1) binding.2 found) found).lookup name =
          ((spellings bindings name).getLast?.map (·.2)).or (found.lookup name) := by
    induction bindings generalizing found with
    | nil => rfl
    | cons binding rest ih =>
        rw [List.foldl_cons, ih, spellings_cons]
        by_cases same : Text.lowerCase binding.1 = name
        · rw [same, Bindings.lookup_assign_self, if_pos (beq_self_eq_true name)]
          cases spellings rest name with
          | nil => rfl
          | cons other others => simp [List.getLast?_cons]
        · rw [Bindings.lookup_assign_of_ne _ _ (Ne.symm same), if_neg (by simpa using same), List.nil_append]
  rw [keyed_eq, along, List.lookup_nil, Option.or_none]

theorem lookup_keyed_once {bindings : Bindings String β} {name : String}
    (once : (spellings bindings name).length ≤ 1) :
    (keyed {} bindings).lookup name = spelled? bindings name := by
  rw [lookup_keyed, spelled?]
  match spellings bindings name, once with
  | [], _ => rfl
  | [_], _ => rfl

theorem mem_assign {key : String} {v : β} {bindings : Bindings String β} {entry : String × β}
    (member : entry ∈ bindings.assign key v) : entry = (key, v) ∨ entry ∈ bindings := by
  induction bindings with
  | nil => exact .inl (List.mem_singleton.mp member)
  | cons binding rest ih =>
      obtain ⟨k, w⟩ := binding
      rw [Bindings.assign] at member
      split at member
      · next same =>
          rw [eq_of_beq same] at member
          exact (List.mem_cons.mp member).imp_right (.tail _)
      · rcases List.mem_cons.mp member with rfl | member
        · exact .inr (.head _)
        · exact (ih member).imp_right (.tail _)

/-- What holds of all names in lower case holds of the names that bindings are compared by. -/
theorem forall_keyed {P : String → Prop} {bindings : Bindings String β}
    (holds : ∀ binding ∈ bindings, P (Text.lowerCase binding.1)) :
    ∀ entry ∈ keyed {} bindings, P entry.1 := by
  have along (found : Bindings String β) (before : ∀ entry ∈ found, P entry.1) :
      ∀ entry ∈ bindings.foldl
        (fun found binding => Bindings.assign (Text.lowerCase binding.1) binding.2 found) found, P entry.1 := by
    induction bindings generalizing found with
    | nil => exact before
    | cons binding rest ih =>
        refine ih (fun other member => holds other (.tail _ member)) _ fun entry member => ?_
        rcases mem_assign member with rfl | member
        · exact holds binding (.head _)
        · exact before entry member
  rw [keyed_eq]
  exact along [] fun _ member => absurd member List.not_mem_nil

end

/-! What sets the fields. -/

namespace Field

/-- The name of a field's variable, in lower case. -/
def variableKey (f : Field) : String := "ycomb_" ++ f.name

theorem variableName_eq (f : Field) : Options.variableName {} f = f.variableKey := by
  cases f <;> decide +kernel

end Field

/-- Arguments that are fields, a file whose variables are those of fields, and no field set in two
spellings by one of them or by the environment. -/
structure SetsFields (arguments : Bindings String Value) (sources : Sources) : Prop where
  argument_field : ∀ argument ∈ arguments, ∃ f : Field, f.name = Text.lowerCase argument.1
  entry_field : ∀ entry ∈ sources.entries, ∃ f : Field, f.variableKey = Text.lowerCase entry.1
  argument_once : ∀ f : Field, (spellings arguments f.name).length ≤ 1
  variable_once : ∀ f : Field, (spellings sources.environment f.variableKey).length ≤ 1
  entry_once : ∀ f : Field, (spellings sources.entries f.variableKey).length ≤ 1

/-- The raw value of a field: that of the first of the arguments, the environment and the file that gives
it one. -/
def winner? (arguments : Bindings String Value) (sources : Sources) (f : Field) : Option Value :=
  match spelled? arguments f.name with
  | some v => some v
  | none =>
      match spelled? sources.environment f.variableKey with
      | some text => some (.str text)
      | none => (spelled? sources.entries f.variableKey).join.map .str

section

variable {arguments : Bindings String Value} {sources : Sources}

theorem textsGiven_eq {β : Type} (isEmpty : β → Bool) (bindings : Bindings String β) :
    textsGiven {} isEmpty bindings = keyed {} bindings := by
  have all (binding : String × β) : (!((false : Bool) && isEmpty binding.2)) = true := rfl
  unfold textsGiven
  rw [List.filter_eq_self.mpr fun binding _ => all binding]

theorem environmentVariables_eq (sources : Sources) :
    environmentVariables {} sources = keyed {} sources.environment := textsGiven_eq _ _

theorem fileVariables_eq (sources : Sources) : fileVariables {} sources = keyed {} sources.entries :=
  textsGiven_eq (· == some "") _

theorem raw?_eq_winner? (sets : SetsFields arguments sources) :
    raw? {} arguments sources = winner? arguments sources := by
  funext f
  unfold raw? winner?
  rw [environmentVariables_eq, fileVariables_eq, f.variableName_eq, lookup_keyed_once (sets.argument_once f),
    lookup_keyed_once (sets.variable_once f), lookup_keyed_once (sets.entry_once f)]
  rfl

theorem unusedEntries_eq_nil (sets : SetsFields arguments sources) : unusedEntries {} sources = [] := by
  unfold unusedEntries
  rw [fileVariables_eq, List.filterMap_eq_nil_iff]
  intro entry member
  obtain ⟨f, same⟩ := forall_keyed (P := fun name => ∃ f : Field, f.variableKey = name) sets.entry_field
    entry member
  have used : (Field.all.any fun f => f.name == entry.1 || Options.variableName {} f == entry.1) = true := by
    refine List.any_eq_true.mpr ⟨f, f.mem_all, ?_⟩
    rw [f.variableName_eq, same, beq_self_eq_true, Bool.or_true]
  dsimp only
  rw [used, if_pos rfl, ite_self]

theorem unusedArguments_eq_nil (sets : SetsFields arguments sources) :
    unusedArguments {} arguments = [] := by
  refine List.filter_eq_nil_iff.mpr fun name member => ?_
  obtain ⟨argument, inside, rfl⟩ := List.mem_map.mp member
  obtain ⟨f, same⟩ := sets.argument_field argument inside
  intro unused
  have differs := List.all_eq_true.mp unused f f.mem_all
  exact absurd same (by simpa [Options.key] using differs)

theorem lowerCase_option : ∀ option ∈ Options.names, ∀ f ∈ Field.all, f.name ≠ Text.lowerCase option := by
  decide +kernel

theorem partition_eq (sets : SetsFields arguments sources) :
    arguments.partition (fun (name, _) => Options.names.contains name) = ([], arguments) := by
  have none (argument) (member : argument ∈ arguments) : Options.names.contains argument.1 = false := by
    obtain ⟨f, same⟩ := sets.argument_field argument member
    rw [← Bool.not_eq_true, List.contains_iff_mem]
    exact fun option => lowerCase_option _ option f f.mem_all same
  rw [List.partition_eq_filter_filter, List.filter_eq_nil_iff.mpr, List.filter_eq_self.mpr]
  · intro argument member
    exact congrArg not (none argument member)
  · intro argument member
    exact Bool.eq_false_iff.mp (none argument member)

end

/-! Fields judged by themselves. -/

namespace Field

/-- What a field must not be below. -/
def floor : Field → Int
  | recursionLimit => 1000
  | exhaustionHeadroom => 50
  | _ => 0

/-- Whether a raw value stands for a value of a field's type, and for none below its floor. -/
def accepts (f : Field) (v : Value) : Bool :=
  match f with
  | trace => (readFlag v).isOk
  | f =>
      match readInteger v with
      | .ok i => f.floor ≤ i
      | .error _ => false

/-- Whether a field is given a raw value that it does not accept. -/
def refuses (raw : Field → Option Value) (f : Field) : Bool := (raw f).any (!f.accepts ·)

end Field

/-- What a raw value stands for, or the default where there is none. -/
def Stands {α : Type} (read : Value → Except Problem α) (standard : α) (raw : Option Value) (a : α) :
    Prop :=
  match raw with
  | none => a = standard
  | some v => read v = .ok a

/-- Settings of which each stands for its raw value. -/
structure Stand (raw : Field → Option Value) (s : Settings) : Prop where
  recursionLimit : Stands readInteger 2000 (raw .recursionLimit) s.recursionLimit
  exhaustionHeadroom : Stands readInteger 200 (raw .exhaustionHeadroom) s.exhaustionHeadroom
  trace : Stands readFlag false (raw .trace) s.trace
  demoN : Stands readInteger 6 (raw .demoN) s.demoN

/-- Settings that are not below the floors. -/
structure Floored (s : Settings) : Prop where
  recursionLimit : 1000 ≤ s.recursionLimit
  exhaustionHeadroom : 50 ≤ s.exhaustionHeadroom
  demoN : 0 ≤ s.demoN

section

variable {α : Type} {raw : Field → Option Value} {f : Field} {standard : α}
  {read : Value → Except Problem α}

/-- A field's complaint, if there is one, is its own. -/
theorem field_complaints (raw : Field → Option Value) (standard : α) (judges : ∀ v, (read v).isOk = f.accepts v) :
    (field raw f standard read).2.map Complaint.name = ([f].filter (Field.refuses raw)).map Field.name := by
  unfold field Field.refuses
  cases given : raw f with
  | none => simp [given]
  | some v =>
      have accepted := judges v
      cases outcome : read v with
      | ok a => rw [outcome] at accepted; simp [given, outcome, ← accepted, Except.isOk, Except.toBool]
      | error p => rw [outcome] at accepted; simp [given, outcome, ← accepted, Except.isOk, Except.toBool]

theorem field_stands (fine : (field raw f standard read).2 = []) :
    Stands read standard (raw f) (field raw f standard read).1 := by
  unfold field at fine ⊢
  cases given : raw f with
  | none => rfl
  | some v =>
      rw [given] at fine
      dsimp only at fine ⊢
      cases outcome : read v with
      | ok a => exact outcome
      | error p => rw [outcome] at fine; cases fine

end

theorem readFloored_isOk (floor : Int) (rule : String) (v : Value) :
    (readInteger v >>= atLeast floor rule).isOk =
      match readInteger v with
      | .ok i => decide (floor ≤ i)
      | .error _ => false := by
  cases readInteger v with
  | error p => rfl
  | ok i =>
      change (atLeast floor rule i).isOk = decide (floor ≤ i)
      unfold atLeast
      split
      · next below => rw [decide_eq_false (by omega)]; rfl
      · next above => rw [decide_eq_true (by omega)]; rfl

theorem stands_floored {floor standard i : Int} {rule : String} {raw : Option Value}
    (least : floor ≤ standard) (stands : Stands (readInteger · >>= atLeast floor rule) standard raw i) :
    Stands readInteger standard raw i ∧ floor ≤ i := by
  cases raw with
  | none =>
      obtain rfl : i = standard := stands
      exact ⟨rfl, least⟩
  | some v =>
      change (readInteger v >>= atLeast floor rule) = .ok i at stands
      cases read : readInteger v with
      | error p => rw [read] at stands; cases stands
      | ok j =>
          rw [read] at stands
          obtain ⟨rfl, above⟩ := atLeast_eq_ok_iff.mp stands
          exact ⟨read, above⟩

/-- Settings judged by the raw values of their fields, and by what else there is to complain of. -/
def judged (raw : Field → Option Value) (unused : List Complaint) : Except (List Complaint) Settings :=
  let limit := field raw .recursionLimit 2000 readRecursionLimit
  let headroom := field raw .exhaustionHeadroom 200 readExhaustionHeadroom
  let trace := field raw .trace false readFlag
  let demoN := field raw .demoN 6 readDemoN
  match limit.2 ++ headroom.2 ++ trace.2 ++ demoN.2 ++ unused with
  | [] => .ok ⟨limit.1, headroom.1, trace.1, demoN.1⟩
  | complaints => .error complaints

theorem loadWith_eq (o : Options) (arguments : Bindings String Value) (sources : Sources) :
    loadWith o arguments sources = judged (raw? o arguments sources)
      ((unusedEntries o sources ++ unusedArguments o arguments).map (⟨·, .unexpected⟩)) := rfl

theorem judged_ok {raw : Field → Option Value} {unused : List Complaint} {s : Settings}
    (loaded : judged raw unused = .ok s) : Stand raw s ∧ Floored s := by
  unfold judged at loaded
  dsimp only at loaded
  split at loaded
  · next fine =>
      simp only [List.append_eq_nil_iff] at fine
      obtain ⟨⟨⟨⟨limit, headroom⟩, trace⟩, demoN⟩, -⟩ := fine
      cases loaded
      have limit := stands_floored (by decide) (field_stands limit)
      have headroom := stands_floored (by decide) (field_stands headroom)
      have demoN := stands_floored (by decide) (field_stands demoN)
      exact ⟨⟨limit.1, headroom.1, field_stands trace, demoN.1⟩, ⟨limit.2, headroom.2, demoN.2⟩⟩
  · cases loaded

theorem judged_error {raw : Field → Option Value} {complaints : List Complaint}
    (failed : judged raw [] = .error complaints) :
    complaints ≠ [] ∧
      complaints.map Complaint.name = (Field.all.filter (Field.refuses raw)).map Field.name := by
  unfold judged at failed
  dsimp only at failed
  split at failed
  · cases failed
  · next some =>
      cases failed
      refine ⟨some, ?_⟩
      have limit := field_complaints (f := .recursionLimit) raw 2000
        (readFloored_isOk 1000 "recursion_limit must be at least 1000")
      have headroom := field_complaints (f := .exhaustionHeadroom) raw 200
        (readFloored_isOk 50 "exhaustion_headroom must be at least 50")
      have trace := field_complaints (f := .trace) raw false fun _ => rfl
      have demoN := field_complaints (f := .demoN) raw 6
        (readFloored_isOk 0 "demo_n must be non-negative")
      have parts : Field.all = [Field.recursionLimit] ++ [.exhaustionHeadroom] ++ [.trace] ++ [.demoN] := rfl
      rw [List.append_nil, parts]
      simp only [List.map_append, List.filter_append]
      rw [← limit, ← headroom, ← trace, ← demoN]
      rfl

theorem load_eq_judged {arguments : Bindings String Value} {sources : Sources}
    (sets : SetsFields arguments sources) :
    load arguments sources = judged (winner? arguments sources) [] := by
  unfold load
  rw [partition_eq sets]
  change loadWith {} arguments sources = _
  rw [loadWith_eq, raw?_eq_winner? sets, unusedEntries_eq_nil sets, unusedArguments_eq_nil sets]
  rfl

/-- How settings end that are judged by the raw values of their fields: loaded, with what each stands
for, or refused, with one complaint for each field that refuses its raw value, in the fields' order. -/
def Judges (raw : Field → Option Value) : Except (List Complaint) Settings → Prop
  | .ok s => Stand raw s ∧ ∀ f, Field.refuses raw f = false
  | .error complaints => complaints ≠ [] ∧
      complaints.map Complaint.name = (Field.all.filter (Field.refuses raw)).map Field.name

theorem stands_accepted {floor standard i : Int} {raw : Option Value}
    (stands : Stands readInteger standard raw i) (above : floor ≤ i) :
    (raw.any fun v => !match readInteger v with
      | .ok i => decide (floor ≤ i)
      | .error _ => false) = false := by
  cases raw with
  | none => rfl
  | some v =>
      have read : readInteger v = .ok i := stands
      simp [read, above]

theorem judged_judges (raw : Field → Option Value) : Judges raw (judged raw []) := by
  cases outcome : judged raw [] with
  | error complaints => exact judged_error outcome
  | ok s =>
      obtain ⟨stand, floored⟩ := judged_ok outcome
      refine ⟨stand, fun f => ?_⟩
      cases f with
      | recursionLimit => exact stands_accepted stand.recursionLimit floored.recursionLimit
      | exhaustionHeadroom => exact stands_accepted stand.exhaustionHeadroom floored.exhaustionHeadroom
      | demoN => exact stands_accepted stand.demoN floored.demoN
      | trace =>
          have read := stand.trace
          unfold Field.refuses
          cases given : raw .trace with
          | none => rfl
          | some v =>
              rw [given] at read
              have read : readFlag v = .ok s.trace := read
              simp [Field.accepts, read, Except.isOk, Except.toBool]

/-- Loaded settings keep their floors. Where nothing but fields is set, and each in one spelling, every
field is judged by the raw value that wins, and values that do not win change nothing. -/
theorem load_judges_fields (arguments : Bindings String Value) (sources : Sources) :
    (∀ s, load arguments sources = .ok s → Floored s) ∧
    (SetsFields arguments sources →
      Judges (winner? arguments sources) (load arguments sources) ∧
      ∀ arguments' sources', SetsFields arguments' sources' →
        winner? arguments' sources' = winner? arguments sources →
        load arguments' sources' = load arguments sources) := by
  constructor
  · intro s loaded
    unfold load at loaded
    dsimp only at loaded
    rw [loadWith_eq] at loaded
    exact (judged_ok loaded).2
  · intro sets
    rw [load_eq_judged sets]
    constructor
    · exact judged_judges _
    · intro arguments' sources' sets' same
      rw [load_eq_judged sets', same]

/-- A variable with no integer in it, and a file with a limit below the floor and a value that the
variable hides. -/
def crossedSources : Sources where
  environment := [("PATH", "/bin"), ("Ycomb_Demo_N", "six")]
  file := some "YCOMB_RECURSION_LIMIT=999\nYCOMB_DEMO_N=5\n"

theorem load_judges_fields_crossed :
    SetsFields [("trace", .bool true)] crossedSources ∧
      Judges (winner? [("trace", .bool true)] crossedSources) (load [("trace", .bool true)] crossedSources) := by
  have entries : crossedSources.entries =
      [("YCOMB_RECURSION_LIMIT", some "999"), ("YCOMB_DEMO_N", some "5")] := by decide +kernel
  have sets : SetsFields [("trace", .bool true)] crossedSources := by
    constructor
    · intro argument member
      obtain rfl := List.mem_singleton.mp member
      exact ⟨.trace, by decide +kernel⟩
    · intro entry member
      rw [entries] at member
      rcases List.mem_pair.mp member with rfl | rfl
      · exact ⟨.recursionLimit, by decide +kernel⟩
      · exact ⟨.demoN, by decide +kernel⟩
    · intro f
      cases f <;> decide +kernel
    · intro f
      cases f <;> decide +kernel
    · intro f
      rw [entries]
      cases f <;> decide +kernel
  exact ⟨sets, ((load_judges_fields [("trace", .bool true)] crossedSources).2 sets).1⟩

end Knot.Settings
