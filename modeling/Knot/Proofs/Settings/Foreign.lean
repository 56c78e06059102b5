import Knot.Proofs.Settings.Keeping
import Knot.Proofs.Settings.Loading
import Mathlib.Data.List.Nodup

/-!
Variables that are not of the settings. In the environment they are passed over. In the file they are not:
each that is given a value and has not the name of a field is complained of. Nothing else comes of them, as
long as the settings' own values in the file do not refer to them.
-/

namespace Knot.Settings

/-! Names. -/

/-- Whether a name in lower case does not start as the names of the settings' variables do. -/
def isForeignKey (key : String) : Bool := !"ycomb_".toList.isPrefixOf key.toList

/-- Whether a name does not start as the names of the settings' variables do, in any letter case. -/
def isForeign (name : String) : Bool := isForeignKey (Text.lowerCase name)

namespace Field

theorem variableKey_own (f : Field) : isForeignKey f.variableKey = false := by
  cases f <;> decide +kernel

end Field

/-! The settings' own variables. -/

section

variable {β : Type}

/-- The bindings of the settings' own variables. -/
def own (bindings : Bindings String β) : Bindings String β := bindings.filter fun binding => !isForeign binding.1

theorem own_cons (binding : String × β) (rest : Bindings String β) :
    own (binding :: rest) = (if isForeign binding.1 then [] else [binding]) ++ own rest := by
  unfold own
  rw [List.filter_cons]
  cases isForeign binding.1 <;> rfl

theorem lookup_own {name : String} (mine : isForeign name = false) (bindings : Bindings String β) :
    (own bindings).lookup name = bindings.lookup name :=
  Bindings.lookup_filter (p := fun name => !isForeign name) bindings (by rw [mine]; rfl)

theorem own_assign {name : String} (mine : isForeign name = false) (v : β) (bindings : Bindings String β) :
    own (bindings.assign name v) = (own bindings).assign name v :=
  Bindings.filter_assign (p := fun name => !isForeign name) v bindings (by rw [mine]; rfl)

theorem own_assign_foreign {name : String} (foreign : isForeign name = true) (v : β) (bindings : Bindings String β) :
    own (bindings.assign name v) = own bindings :=
  Bindings.filter_assign_of_not (p := fun name => !isForeign name) v bindings (by rw [foreign]; rfl)

theorem own_erase_foreign {name : String} (foreign : isForeign name = true) (bindings : Bindings String β) :
    own (bindings.erase name) = own bindings := by
  unfold own Bindings.erase
  rw [List.filter_filter]
  apply List.filter_congr
  intro binding _
  by_cases same : binding.1 = name
  · rw [same, foreign]
    rfl
  · have apart : (binding.1 == name) = false := beq_eq_false_iff_ne.mpr same
    change (!isForeign binding.1 && !(binding.1 == name)) = _
    rw [apart, Bool.not_false, Bool.and_true]

/-- A name of the settings' own is spelled by their own variables only. -/
theorem spellings_own {key : String} (mine : isForeignKey key = false) (bindings : Bindings String β) :
    spellings (own bindings) key = spellings bindings key := by
  unfold spellings own
  rw [List.filter_filter]
  apply List.filter_congr
  intro binding _
  by_cases same : Text.lowerCase binding.1 = key
  · have mine' : isForeign binding.1 = false := by rw [isForeign, same, mine]
    rw [mine', Bool.not_false, Bool.and_true]
  · rw [beq_eq_false_iff_ne.mpr same, Bool.false_and]

theorem lookup_keyed_own {key : String} (mine : isForeignKey key = false) (bindings : Bindings String β) :
    (keyed {} (own bindings)).lookup key = (keyed {} bindings).lookup key := by
  rw [lookup_keyed, lookup_keyed, spellings_own mine]

/-- The settings' own variables, by the names that they are compared by. -/
theorem keyed_own (bindings : Bindings String β) :
    keyed {} (own bindings) = (keyed {} bindings).filter fun entry => !isForeignKey entry.1 := by
  have along (found : Bindings String β) :
      (own bindings).foldl (fun found binding => Bindings.assign (Text.lowerCase binding.1) binding.2 found)
          (found.filter fun entry => !isForeignKey entry.1) =
        (bindings.foldl (fun found binding => Bindings.assign (Text.lowerCase binding.1) binding.2 found) found).filter
          fun entry => !isForeignKey entry.1 := by
    induction bindings generalizing found with
    | nil => rfl
    | cons binding rest ih =>
        rw [List.foldl_cons, ← ih, own_cons, isForeign]
        cases foreign : isForeignKey (Text.lowerCase binding.1) with
        | true =>
            have dropped : (!isForeignKey (Text.lowerCase binding.1)) = false := by rw [foreign]; rfl
            rw [Bindings.filter_assign_of_not (p := fun key => !isForeignKey key) _ _ dropped]
            rfl
        | false =>
            have kept : (!isForeignKey (Text.lowerCase binding.1)) = true := by rw [foreign]; rfl
            rw [Bindings.filter_assign (p := fun key => !isForeignKey key) _ _ kept]
            rfl
  rw [keyed_eq, keyed_eq]
  exact along []

/-- No two variables are compared by one name. -/
theorem nodup_keyed (bindings : Bindings String β) : (keyed {} bindings).keys.Nodup := by
  have along (found : Bindings String β) (once : found.keys.Nodup) :
      (bindings.foldl (fun found binding => Bindings.assign (Text.lowerCase binding.1) binding.2 found)
        found).keys.Nodup := by
    induction bindings generalizing found with
    | nil => exact once
    | cons binding rest ih =>
        apply ih
        dsimp only
        by_cases member : Text.lowerCase binding.1 ∈ found.keys
        · rw [Bindings.keys_assign_of_mem _ member]
          exact once
        · rw [Bindings.assign_of_not_mem _ member, Bindings.keys, List.map_append]
          apply List.nodup_append.mpr
          refine ⟨once, List.nodup_singleton _, fun key inside other new same => ?_⟩
          rw [same, List.mem_singleton.mp new] at inside
          exact member inside
  rw [keyed_eq]
  exact along [] List.nodup_nil

theorem mem_keyed_iff {bindings : Bindings String β} {key : String} {v : β} :
    (key, v) ∈ keyed {} bindings ↔ (spellings bindings key).getLast?.map (·.2) = some v := by
  rw [← lookup_keyed]
  have once := nodup_keyed bindings
  generalize keyed {} bindings = found at once
  induction found with
  | nil => simp
  | cons entry rest ih =>
      obtain ⟨k, w⟩ := entry
      obtain ⟨new, once⟩ := List.nodup_cons.mp once
      rw [List.lookup_cons, List.mem_cons]
      by_cases same : key = k
      · subst same
        have absent : (key, v) ∉ rest := fun member => new (List.mem_map.mpr ⟨_, member, rfl⟩)
        simp [absent, eq_comm]
      · have later : (key, v) ∈ rest ↔ rest.lookup key = some v := ih once
        have apart : (key == k) = false := beq_eq_false_iff_ne.mpr same
        simp [same, apart, later]

end

/-! What a file says, before it is known what its values refer to. -/

namespace EnvFile

/-- The entries of a file, as they are written. -/
def written (text : String) : List Entry :=
  let chars := unifyLineEnds (dropMark text.toList)
  readLines (chars.length + 1) chars

/-- A value with its references replaced. -/
def value (environment : Bindings String String) (file : Bindings String (Option String)) (v : String) : String :=
  String.ofList (expand (valueIn? environment file) (v.length + 1) v.toList)

theorem read_eq (environment : Bindings String String) (text : String) :
    read environment text = (written text).foldl
      (fun file entry => Bindings.assign entry.1 (entry.2.map (value environment file)) file) [] := rfl

/-- The names that a text refers to. -/
def references : Nat → List Char → List String
  | 0, _ => []
  | fuel + 1, s =>
      match s with
      | '$' :: '\x7b' :: rest =>
          let inName (c : Char) : Bool := c != '\x7d' && c != ':'
          let name := String.ofList (rest.takeWhile inName)
          match rest.dropWhile inName with
          | '\x7d' :: after => name :: references fuel after
          | ':' :: '-' :: after =>
              match after.dropWhile (· != '\x7d') with
              | _ :: behind => name :: references fuel behind
              | [] => references fuel ('\x7b' :: rest)
          | _ => references fuel ('\x7b' :: rest)
      | _ :: rest => references fuel rest
      | [] => []

/-- What a text stands for depends on the names that it refers to. -/
theorem expand_congr {value? value?' : String → Option String} {fuel : Nat} {s : List Char}
    (same : ∀ name ∈ references fuel s, value? name = value?' name) :
    expand value? fuel s = expand value?' fuel s := by
  fun_induction expand value? fuel s with
  | case1 s => rfl
  | case2 fuel rest inName valueOr after shape ih =>
      simp only [inName] at shape
      simp only [references, shape, List.mem_cons, forall_eq_or_imp] at same
      simp only [expand, shape, valueOr, inName, same.1, ih same.2]
  | case3 fuel rest inName valueOr after shape c behind closes ih =>
      simp only [inName] at shape
      simp only [references, shape, closes, List.mem_cons, forall_eq_or_imp] at same
      simp only [expand, shape, closes, valueOr, inName, same.1, ih same.2]
  | case4 fuel rest inName after shape closes ih =>
      simp only [inName] at shape
      simp only [references, shape, closes] at same
      simp only [expand, shape, closes, ih same]
  | case5 fuel rest inName closed standIn ih =>
      have names : references (fuel + 1) ('$' :: '\x7b' :: rest) = references fuel ('\x7b' :: rest) := by
        rw [references]
        split
        · next after shape => exact (closed after shape).elim
        · next after shape => exact (standIn after shape).elim
        · rfl
      rw [names] at same
      rw [ih same, expand]
      split
      · next after shape => exact (closed after shape).elim
      · next after shape => exact (standIn after shape).elim
      · rfl
  | case6 fuel c rest other ih =>
      simp only [references] at same
      rw [expand, ih same]
      exact other
  | case7 fuel => rfl

/-- No value that the entries give refers to a foreign variable. -/
def ReferToOwn (entries : List Entry) : Prop :=
  ∀ entry ∈ entries, ∀ v ∈ entry.2, ∀ name ∈ references (v.length + 1) v.toList, isForeign name = false

section

variable {environment environment' : Bindings String String} {file : Bindings String (Option String)}
  {entries : List Entry}

theorem value_own {v : String} (refers : ∀ name ∈ references (v.length + 1) v.toList, isForeign name = false) :
    value (own environment) (own file) v = value environment file v := by
  unfold value
  rw [expand_congr]
  intro name referred
  have mine := refers name referred
  unfold valueIn?
  rw [lookup_own mine, lookup_own mine]

/-- What the settings' own variables are comes of their own entries. -/
theorem own_read (refers : ReferToOwn (own entries)) :
    own (entries.foldl (fun file entry => Bindings.assign entry.1 (entry.2.map (value environment file)) file) file) =
      (own entries).foldl (fun file entry => Bindings.assign entry.1 (entry.2.map (value (own environment) file)) file)
        (own file) := by
  induction entries generalizing file with
  | nil => rfl
  | cons entry rest ih =>
      have refers' : ReferToOwn (own rest) := by
        intro other member
        apply refers other
        rw [own_cons]
        exact List.mem_append_right _ member
      rw [List.foldl_cons, ih refers', own_cons]
      cases foreign : isForeign entry.1 with
      | true =>
          rw [own_assign_foreign foreign]
          rfl
      | false =>
          have here : entry ∈ own (entry :: rest) := by
            rw [own_cons, foreign]
            exact List.mem_cons_self
          have same : entry.2.map (value environment file) = entry.2.map (value (own environment) (own file)) :=
            Option.map_congr fun v given => (value_own (refers entry here v given)).symm
          rw [own_assign foreign, same]
          rfl

/-- Nothing comes of foreign variables of the environment, where no value refers to one. -/
theorem read_congr (same : own environment = own environment') (refers : ReferToOwn entries) :
    entries.foldl (fun file entry => Bindings.assign entry.1 (entry.2.map (value environment file)) file) file =
      entries.foldl (fun file entry => Bindings.assign entry.1 (entry.2.map (value environment' file)) file) file := by
  induction entries generalizing file with
  | nil => rw [List.foldl_nil, List.foldl_nil]
  | cons entry rest ih =>
      have here : entry.2.map (value environment file) = entry.2.map (value environment' file) := by
        apply Option.map_congr
        intro v given
        have refers := refers entry List.mem_cons_self v given
        calc
          value environment file v = value (own environment) (own file) v := (value_own refers).symm
          _ = value (own environment') (own file) v := congrArg (value · (own file) v) same
          _ = value environment' file v := value_own refers
      rw [List.foldl_cons, List.foldl_cons, here]
      exact ih fun other member => refers other (List.mem_cons_of_mem _ member)

end

end EnvFile

namespace Sources

/-- The entries of the file, as they are written. -/
def written (sources : Sources) : List EnvFile.Entry :=
  match sources.file with
  | none => []
  | some text => EnvFile.written text

/-- Sources with the same variables of the settings' own, in the environment and in the file. The foreign
ones may be any. -/
structure SameOwn (sources sources' : Sources) : Prop where
  environment : own sources.environment = own sources'.environment
  file : own sources.written = own sources'.written

variable {sources sources' : Sources}

theorem entries_eq (sources : Sources) : sources.entries = sources.written.foldl
    (fun file entry => Bindings.assign entry.1 (entry.2.map (EnvFile.value sources.environment file)) file) [] := by
  unfold entries written
  cases sources.file with
  | none => rfl
  | some text => exact EnvFile.read_eq _ text

/-- A foreign variable of the environment may be given any text, or taken out. -/
theorem sameOwn_setVariable {name : String} (foreign : isForeign name = true) (text : Option String) :
    SameOwn sources (sources.setVariable name text) := by
  cases text with
  | none => exact ⟨(own_erase_foreign foreign _).symm, rfl⟩
  | some text => exact ⟨(own_assign_foreign foreign text _).symm, rfl⟩

theorem SameOwn.entries (same : SameOwn sources sources') (refers : EnvFile.ReferToOwn (own sources.written)) :
    own sources.entries = own sources'.entries := by
  rw [entries_eq, entries_eq, EnvFile.own_read refers, EnvFile.own_read (same.file ▸ refers), same.environment,
    same.file]

end Sources

/-! What is complained of. -/

/-- Whether a name, in lower case, is a foreign one that no field has. -/
def isStray (key : String) : Bool := isForeignKey key && Field.all.all fun f => f.name != key

def complaintsOf : Except (List Complaint) Settings → List Complaint
  | .ok _ => []
  | .error complaints => complaints

/-- The complaints of the fields. -/
def fieldComplaints (raw : Field → Option Value) : List Complaint :=
  (field raw .recursionLimit 2000 readRecursionLimit).2 ++ (field raw .exhaustionHeadroom 200 readExhaustionHeadroom).2 ++
    (field raw .trace false readFlag).2 ++ (field raw .demoN 6 readDemoN).2

theorem complaintsOf_judged (raw : Field → Option Value) (unused : List Complaint) :
    complaintsOf (judged raw unused) = fieldComplaints raw ++ unused := by
  unfold judged fieldComplaints
  dsimp only
  split
  · next none => exact none.symm
  · rfl

theorem field_complaint_name {α : Type} {raw : Field → Option Value} {f : Field} {standard : α}
    {read : Value → Except Problem α} : ∀ c ∈ (field raw f standard read).2, c.name = f.name := by
  intro c member
  unfold field at member
  split at member
  · cases member
  · split at member
    · cases member
    · rw [List.mem_singleton.mp member]

/-- No field is foreign to the settings. -/
theorem fieldComplaints_own (raw : Field → Option Value) : ∀ c ∈ fieldComplaints raw, isStray c.name = false := by
  have named (f : Field) : isStray f.name = false := by cases f <;> decide +kernel
  intro c member
  simp only [fieldComplaints, List.mem_append] at member
  rcases member with ((limit | headroom) | trace) | demoN
  · rw [field_complaint_name c limit, named]
  · rw [field_complaint_name c headroom, named]
  · rw [field_complaint_name c trace, named]
  · rw [field_complaint_name c demoN, named]

/-- Whether an entry of the file sets no field, though it is given a value. -/
def isUnused (entry : String × Option String) : Bool :=
  !(entry.2.getD "").isEmpty && Field.all.all fun f => f.name != entry.1 && f.variableKey != entry.1

theorem unusedEntries_eq (sources : Sources) :
    unusedEntries {} sources = ((keyed {} sources.entries).filter isUnused).map Prod.fst := by
  unfold unusedEntries
  rw [fileVariables_eq]
  induction keyed {} sources.entries with
  | nil => rfl
  | cons entry rest ih =>
      obtain ⟨name, v⟩ := entry
      have fields : (Field.all.any fun f => f.name == name || Options.variableName {} f == name) =
          !(Field.all.all fun f => f.name != name && f.variableKey != name) := by
        simp only [Field.variableName_eq, List.not_all_eq_any_not, Bool.not_and, bne, Bool.not_not]
      rw [List.filterMap_cons, List.filter_cons, ih]
      dsimp only
      rw [fields]
      by_cases empty : (v.getD "").isEmpty = true
      · have used : isUnused (name, v) = false := by
          unfold isUnused
          rw [empty, Bool.not_true, Bool.false_and]
        rw [if_pos empty, used, if_neg Bool.false_ne_true]
      · have same : isUnused (name, v) = Field.all.all fun f => f.name != name && f.variableKey != name := by
          unfold isUnused
          rw [Bool.eq_false_iff.mpr empty, Bool.not_false, Bool.true_and]
        rw [if_neg empty, same]
        cases Field.all.all fun f => f.name != name && f.variableKey != name <;> rfl

theorem load_eq (sources : Sources) :
    load [] sources = judged (raw? {} [] sources) ((unusedEntries {} sources).map (⟨·, .unexpected⟩)) := by
  change loadWith {} [] sources = _
  rw [loadWith_eq]
  change judged _ ((unusedEntries {} sources ++ []).map _) = _
  rw [List.append_nil]

/-- A foreign variable that the file gives a value, and that has not the name of a field. -/
structure Sources.Refuses (sources : Sources) (key : String) : Prop where
  stray : isStray key = true
  given : ∃ text, text ≠ "" ∧ (spellings sources.entries key).getLast?.map (·.2) = some (some text)

theorem mem_unusedEntries_iff {sources : Sources} {key : String} (stray : isStray key = true) :
    key ∈ unusedEntries {} sources ↔ sources.Refuses key := by
  obtain ⟨foreign, noField⟩ : isForeignKey key = true ∧ ∀ f ∈ Field.all, f.name != key := by
    simpa [isStray] using stray
  have others : (Field.all.all fun f => f.name != key && f.variableKey != key) = true := by
    apply List.all_eq_true.mpr
    intro f member
    have apart : f.variableKey ≠ key := by
      rintro rfl
      rw [f.variableKey_own] at foreign
      cases foreign
    rw [noField f member, Bool.true_and, bne_iff_ne]
    exact apart
  rw [unusedEntries_eq, List.mem_map]
  constructor
  · rintro ⟨⟨name, v⟩, member, rfl⟩
    obtain ⟨member, unused⟩ := List.mem_filter.mp member
    have found := mem_keyed_iff.mp member
    refine ⟨stray, ?_⟩
    cases v with
    | none => cases unused
    | some text =>
        refine ⟨text, ?_, found⟩
        rintro rfl
        cases unused
  · rintro ⟨-, text, some, found⟩
    refine ⟨(key, Option.some text), List.mem_filter.mpr ⟨mem_keyed_iff.mpr found, ?_⟩, rfl⟩
    unfold isUnused
    rw [others, Bool.and_true]
    simpa using some

theorem unusedEntries_own (sources : Sources) : (unusedEntries {} sources).filter (!isStray ·) =
    ((keyed {} (own sources.entries)).filter isUnused).map Prod.fst := by
  rw [unusedEntries_eq, keyed_own, List.filter_map, List.filter_filter, List.filter_filter]
  congr 1
  apply List.filter_congr
  intro entry _
  cases unused : isUnused entry with
  | false => simp
  | true =>
      have noField : (Field.all.all fun f => f.name != entry.1) = true := by
        simp only [isUnused, Bool.and_eq_true, List.all_eq_true] at unused ⊢
        exact fun f member => (unused.2 f member).1
      simp [isStray, noField]

/-! What foreign variables come to. -/

/-- Loading from two sources that differ in foreign variables. -/
structure PassesOver (sources sources' : Sources) : Prop where
  /-- The file's foreign variables that are given a value are complained of, each once. -/
  refused : ∃ keys : List String, keys.Nodup ∧ (∀ key, key ∈ keys ↔ sources.Refuses key) ∧
    (complaintsOf (load [] sources)).filter (isStray ·.name) = keys.map (⟨·, .unexpected⟩)
  /-- All else that is complained of is the same. -/
  others : EnvFile.ReferToOwn (own sources.written) →
    (complaintsOf (load [] sources)).filter (!isStray ·.name) =
      (complaintsOf (load [] sources')).filter (!isStray ·.name)
  /-- Where nothing foreign is complained of, all is the same. -/
  outcome : EnvFile.ReferToOwn (own sources.written) → (∀ key, ¬sources.Refuses key) →
    (∀ key, ¬sources'.Refuses key) → load [] sources = load [] sources'
  /-- Whatever the file says, foreign variables of the environment come to nothing that it does not refer to. -/
  environment : sources.file = sources'.file → EnvFile.ReferToOwn sources.written →
    load [] sources = load [] sources'
  /-- Asking for the kept settings where none are kept is loading. -/
  uncached : ∀ made, ((Cache.get { sources, made }).1.map (·.settings)) = load [] sources

section

variable {sources sources' : Sources}

theorem complaints_stray (sources : Sources) : (complaintsOf (load [] sources)).filter (isStray ·.name) =
    ((unusedEntries {} sources).filter (isStray ·)).map (⟨·, .unexpected⟩) := by
  have fields : (fieldComplaints (raw? {} [] sources)).filter (isStray ·.name) = [] := by
    apply List.filter_eq_nil_iff.mpr
    intro c member
    rw [fieldComplaints_own _ c member]
    exact Bool.false_ne_true
  rw [load_eq, complaintsOf_judged, List.filter_append, fields, List.filter_map]
  rfl

theorem complaints_own (sources : Sources) : (complaintsOf (load [] sources)).filter (!isStray ·.name) =
    fieldComplaints (raw? {} [] sources) ++ ((unusedEntries {} sources).filter (!isStray ·)).map (⟨·, .unexpected⟩) := by
  have fields : (fieldComplaints (raw? {} [] sources)).filter (!isStray ·.name) = fieldComplaints (raw? {} [] sources) := by
    apply List.filter_eq_self.mpr
    intro c member
    rw [fieldComplaints_own _ c member]
    rfl
  rw [load_eq, complaintsOf_judged, List.filter_append, fields, List.filter_map]
  rfl

/-- What sets a field is of the settings' own. -/
theorem raw?_own (environment : own sources.environment = own sources'.environment)
    (entries : own sources.entries = own sources'.entries) : raw? {} [] sources = raw? {} [] sources' := by
  funext f
  have fromEnvironment : (environmentVariables {} sources).lookup f.variableKey =
      (environmentVariables {} sources').lookup f.variableKey := by
    rw [environmentVariables_eq, environmentVariables_eq, ← lookup_keyed_own f.variableKey_own, environment,
      lookup_keyed_own f.variableKey_own]
  have fromFile : (fileVariables {} sources).lookup f.variableKey = (fileVariables {} sources').lookup f.variableKey := by
    rw [fileVariables_eq, fileVariables_eq, ← lookup_keyed_own f.variableKey_own, entries,
      lookup_keyed_own f.variableKey_own]
  unfold raw?
  rw [f.variableName_eq, fromEnvironment, fromFile]

theorem load_congr (raw : raw? {} [] sources = raw? {} [] sources')
    (unused : unusedEntries {} sources = unusedEntries {} sources') : load [] sources = load [] sources' := by
  rw [load_eq, load_eq, raw, unused]

theorem unusedEntries_of_none (none : ∀ key, ¬sources.Refuses key) :
    (unusedEntries {} sources).filter (!isStray ·) = unusedEntries {} sources := by
  apply List.filter_eq_self.mpr
  intro key member
  cases stray : isStray key with
  | false => rfl
  | true => exact absurd ((mem_unusedEntries_iff stray).mp member) (none key)

end

/-- Sources with the same variables of the settings' own give the same settings or the same complaints, but
for a complaint about each foreign variable that the file gives a value. -/
theorem foreign_variables_passed_over {sources sources' : Sources} (same : sources.SameOwn sources') :
    PassesOver sources sources' := by
  constructor
  · refine ⟨(unusedEntries {} sources).filter (isStray ·), ?_, ?_, complaints_stray sources⟩
    · apply List.Nodup.filter
      rw [unusedEntries_eq]
      exact (nodup_keyed sources.entries).sublist (List.filter_sublist.map Prod.fst)
    · intro key
      rw [List.mem_filter]
      constructor
      · rintro ⟨member, stray⟩
        exact (mem_unusedEntries_iff stray).mp member
      · intro refuses
        exact ⟨(mem_unusedEntries_iff refuses.stray).mpr refuses, refuses.stray⟩
  · intro refers
    have entries := same.entries refers
    rw [complaints_own, complaints_own, raw?_own same.environment entries, unusedEntries_own, unusedEntries_own, entries]
  · intro refers none none'
    have entries := same.entries refers
    apply load_congr (raw?_own same.environment entries)
    rw [← unusedEntries_of_none none, ← unusedEntries_of_none none', unusedEntries_own, unusedEntries_own, entries]
  · intro file refers
    have written : sources.written = sources'.written := by
      unfold Sources.written
      rw [file]
    have entries : sources.entries = sources'.entries := by
      rw [Sources.entries_eq, Sources.entries_eq, ← written]
      exact EnvFile.read_congr same.environment refers
    apply load_congr (raw?_own same.environment (congrArg own entries))
    rw [unusedEntries_eq, unusedEntries_eq, entries]
  · intro made
    unfold Cache.get Cache.make
    dsimp only
    cases load [] sources <;> rfl

/-- A file with a variable of the settings' own and, in front of it, one that is foreign. -/
def straySources : Sources where
  environment := [("PATH", "/bin")]
  file := some "FOO=1\nYCOMB_DEMO_N=4\n"

theorem foreign_variables_passed_over_path :
    straySources.SameOwn (straySources.setVariable "PATH" none) ∧
      PassesOver straySources (straySources.setVariable "PATH" none) := by
  have same : straySources.SameOwn (straySources.setVariable "PATH" none) :=
    Sources.sameOwn_setVariable (by decide +kernel) none
  exact ⟨same, foreign_variables_passed_over same⟩

/-- A foreign variable in the file is not passed over, nor is one that the file refers to. -/
theorem foreign_variables_show :
    (∃ sources sources' : Sources, sources.SameOwn sources' ∧ sources.environment = sources'.environment ∧
      load [] sources = .error [⟨"foo", .unexpected⟩] ∧ load [] sources' = .ok ⟨2000, 200, false, 4⟩) ∧
    ∃ sources sources' : Sources, sources.SameOwn sources' ∧ sources.file = sources'.file ∧
      load [] sources = .ok ⟨2000, 200, false, 5⟩ ∧ load [] sources' = .ok ⟨2000, 200, false, 7⟩ := by
  constructor
  · refine ⟨straySources, { straySources with file := some "YCOMB_DEMO_N=4\n" }, ⟨rfl, ?_⟩, rfl, ?_, ?_⟩
    · decide +kernel
    · decide +kernel
    · decide +kernel
  · refine ⟨⟨[("N", "5")], some "YCOMB_DEMO_N=$\x7bN\x7d\n"⟩, ⟨[("N", "7")], some "YCOMB_DEMO_N=$\x7bN\x7d\n"⟩, ⟨?_, rfl⟩, rfl, ?_, ?_⟩
    · decide +kernel
    · decide +kernel
    · decide +kernel

end Knot.Settings
