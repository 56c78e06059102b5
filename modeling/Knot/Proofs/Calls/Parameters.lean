import Knot.Proofs.Calls.Paths
import Knot.Proofs.Journal.Growth

/-!
The parameters of a procedure. A list, a tuple or a text of names makes a procedure just when no two of the
names are equal.
-/

namespace Knot

open Run Renaming Store

variable {s t : Store}

/-- The code of a procedure lists names, in order, as its parameters. -/
def Store.Declares (s : Store) (code : Value) (names : List String) : Prop :=
  ∃ params t, item code (.str "parameters") s = .ok params t ∧
    (∀ mark dtype shape data, params ≠ .array mark dtype shape data) ∧
      (t.head params).members = .ok (names.map .str)

/-- Holding something else than it was made with makes no array of a value. -/
theorem Store.head_ne_array {params : Value} (plain : ∀ mark dtype shape data, params ≠ .array mark dtype shape data)
    (t : Store) (mark : Nat) (dtype : DType) (shape : List Nat) (data : List Value) :
    t.head params ≠ .array mark dtype shape data := by
  intro same
  cases params with
  | array mark dtype shape data => exact plain mark dtype shape data rfl
  | _ => cases same

theorem Run.members_of_head {params : Value} {vs : List Value}
    (plain : ∀ mark dtype shape data, params ≠ .array mark dtype shape data)
    (members : (t.head params).members = .ok vs) : Run.members params t = .ok vs t := by
  unfold Run.members
  cases held : t.head params with
  | array mark dtype shape data => exact absurd held (head_ne_array plain t mark dtype shape data)
  | _ =>
      rw [held] at members
      rw [bind_of_ok (Machine.head_ok held), members]
      rfl

namespace Value

variable {params : Value} {names : List String}

/-- Parameters count as some where there are any. -/
theorem truth_of_members (plain : ∀ mark dtype shape data, params ≠ .array mark dtype shape data)
    (members : params.members = .ok (names.map .str)) (any : names ≠ []) : params.truth = .ok true := by
  cases given : params.truth with
  | error e =>
      cases params with
      | array mark dtype shape data => exact absurd rfl (plain mark dtype shape data)
      | _ => cases given
  | ok given' =>
      cases given' with
      | true => rfl
      | false => exact absurd (List.map_eq_nil_iff.mp (Calculus.nil_of_not_truth given members plain)) any

theorem length_of_members (plain : ∀ mark dtype shape data, params ≠ .array mark dtype shape data)
    (members : params.members = .ok (names.map .str)) : params.length = .ok names.length := by
  cases params with
  | str s =>
      have same := congrArg List.length (Except.ok.inj members)
      rw [characters, List.length_map, List.length_map] at same
      exact congrArg Except.ok same
  | list mark items | tuple mark items =>
      obtain rfl : items = names.map .str := Except.ok.inj members
      rw [length, List.length_map]
  | dict mark entries =>
      have same := congrArg List.length (Except.ok.inj members)
      rw [List.length_map, List.length_map] at same
      exact congrArg Except.ok same
  | range mark start stop step =>
      -- a progression has no names in it
      have same : rangeItems start stop step = names.map .str := Except.ok.inj members
      cases names with
      | nil =>
          have none : rangeLength start stop step = 0 := by
            simpa [rangeItems] using congrArg List.length same
          rw [length, none]
          rfl
      | cons name names =>
          have first : Value.str name ∈ rangeItems start stop step := same ▸ List.mem_cons_self ..
          simp [rangeItems] at first
  | array mark dtype shape data => exact absurd rfl (plain mark dtype shape data)
  | _ => cases members

end Value

theorem Run.length_of_head {params : Value} {names : List String}
    (plain : ∀ mark dtype shape data, params ≠ .array mark dtype shape data)
    (members : (t.head params).members = .ok (names.map .str)) : Run.length params t = .ok names.length t := by
  change Run.ofExcept (t.head params).length t = _
  rw [Value.length_of_members (head_ne_array plain t) members]
  rfl

/-- A list, a tuple or a text lists names: its members are the names. -/
inductive Store.Lists (s : Store) (names : List String) : Value → Prop
  | list {mark : Nat} {items : List Value} : s.items mark items = names.map .str → Lists s names (.list mark items)
  | tuple (mark : Nat) : Lists s names (.tuple mark (names.map .str))
  | text {text : String} : Value.characters text = names.map .str → Lists s names (.str text)

namespace Value

theorem sameKey_str (a b : String) : sameKey (.str a) (.str b) = (a == b) := by
  by_cases same : a = b
  · subst same
    simp [sameKey, equalMember, Value.same, Except.toOption]
  · have apart : (a == b) = false := by simpa using same
    simp [sameKey, equalMember, Value.same, apart, equal, arrayDepth, equalAt, equalWith, Except.toOption]

theorem distinct_length_le (seen vs : List Value) : (distinct seen vs).length ≤ seen.length + vs.length := by
  induction vs generalizing seen with
  | nil => simp [distinct]
  | cons v vs ih =>
      rw [distinct]
      split
      · exact (ih seen).trans (by simp)
      · exact (ih (v :: seen)).trans (by simp; omega)

/-- Names are told apart as keys just where no two are equal. -/
theorem distinct_length_iff (seen names : List String) :
    (distinct (seen.map .str) (names.map .str)).length = seen.length + names.length ↔
      names.Nodup ∧ ∀ name ∈ names, name ∉ seen := by
  induction names generalizing seen with
  | nil => simp [distinct]
  | cons name names ih =>
      have known : ((seen.map Value.str).any (sameKey · (.str name)) = true) ↔ name ∈ seen := by
        simp [List.any_eq_true, sameKey_str]
      rw [List.map_cons, distinct]
      by_cases member : name ∈ seen
      · rw [if_pos (known.mpr member)]
        have fewer := distinct_length_le (seen.map .str) (names.map .str)
        rw [List.length_map, List.length_map] at fewer
        refine ⟨fun same => ?_, fun both => absurd member (both.2 name (List.mem_cons_self ..))⟩
        rw [List.length_cons] at same
        omega
      · rw [if_neg (known.not.mpr member)]
        have rest := ih (name :: seen)
        rw [List.map_cons, List.length_cons] at rest
        rw [List.length_cons, ← Nat.add_assoc, Nat.add_right_comm, rest, List.nodup_cons]
        grind

end Value

namespace Store.Lists

variable {names : List String} {params : Value}

theorem members (lists : s.Lists names params) : Run.members params s = .ok (names.map .str) s := by
  cases lists with
  | @list mark items held =>
      have now : s.head (.list mark items) = .list mark (names.map .str) := congrArg (Value.list mark) held
      exact members_list now
  | tuple mark => rfl
  | text held => exact congrArg (fun vs => EStateM.Result.ok vs s) held

theorem length (lists : s.Lists names params) : Run.length params s = .ok names.length s := by
  cases lists with
  | @list mark items held =>
      have now : s.head (.list mark items) = .list mark (names.map .str) := congrArg (Value.list mark) held
      have counted := length_list now
      rwa [List.length_map] at counted
  | tuple mark =>
      change (.ok (names.map Value.str).length s : EStateM.Result Stop Store Nat) = _
      rw [List.length_map]
  | @text text held =>
      have same := congrArg List.length held
      rw [Value.characters, List.length_map, List.length_map] at same
      change (.ok text.length s : EStateM.Result Stop Store Nat) = _
      rw [← same]
      rfl

theorem showAll_names (frames : Nat → Frame) (names : List String) :
    Value.showAll frames (names.map .str) = .ok (names.map Text.quoted) := by
  induction names with
  | nil => rw [List.map_nil, Value.showAll.eq_def]; rfl
  | cons name names ih =>
      rw [List.map_cons, Value.showAll.eq_def]
      dsimp only
      rw [ih, Value.showWith.eq_def]
      rfl

theorem withContents_names (c : Contents) (around : List Nat) (names : List String) :
    (names.map Value.str).map (Value.withContents c around) = names.map Value.str := by
  rw [List.map_map]
  refine List.map_congr_left fun name _ => ?_
  rw [Function.comp, Value.withContents.eq_def]

/-- Listed names can always be written. -/
theorem shown (lists : s.Lists names params) : ∃ text, Run.shownPlain params s = .ok text s := by
  suffices written : ∃ text, (s.view params).showPlain s.frame = .ok text by
    obtain ⟨text, written⟩ := written
    exact ⟨text, by rw [Run.shownPlain, written]; rfl⟩
  have hops : ∃ hops, s.contents.length + s.namespaces.length + s.tables.length + codeHops = hops + 1 :=
    ⟨_, rfl⟩
  obtain ⟨hops, counted⟩ := hops
  cases lists with
  | @list mark items held =>
      have viewed : s.view (.list mark items) = .list mark (names.map .str) := by
        rw [Store.view, counted, Value.withContents.eq_def]
        simp only [lies, List.contains_nil, Bool.and_false, Bool.false_eq_true, if_false, contentsNow]
        rw [Store.items] at held
        cases known : s.contents.lookup mark with
        | none =>
            rw [known, Option.getD_none] at held
            simp only [Option.map_none, Value.withContentsAll_eq, held]
            rw [withContents_names]
        | some given =>
            rw [known, Option.getD_some] at held
            simp only [Option.map_some, held]
            rw [withContents_names]
      rw [viewed, Value.showPlain_list, showAll_names]
      exact ⟨_, rfl⟩
  | tuple mark =>
      have viewed : s.view (.tuple mark (names.map .str)) = .tuple mark (names.map .str) := by
        rw [Store.view, counted, Value.withContents.eq_def]
        simp only [lies, List.contains_nil, Bool.and_false, Bool.false_eq_true, if_false,
          Value.withContentsAll_eq]
        rw [withContents_names]
      rw [viewed, Value.showPlain.eq_def]
      dsimp only
      rw [Value.showWith.eq_def]
      dsimp only
      rw [showAll_names]
      exact ⟨_, rfl⟩
  | @text text held =>
      have viewed : s.view (.str text) = .str text := by rw [Store.view, Value.withContents.eq_def]
      rw [viewed, Value.showPlain.eq_def]
      exact ⟨_, rfl⟩

end Store.Lists

namespace Calculus

variable {names : List String} {code params closed : Value}

theorem checkKeys_names (names : List String) (t : Store) :
    (forIn (names.map Value.str) PUnit.unit fun (name : Value) _ => do
      Run.ofExcept name.checkKey
      pure (ForInStep.yield PUnit.unit) : Run PUnit) t = .ok PUnit.unit t := by
  induction names with
  | nil => rfl
  | cons name names ih =>
      rw [List.map_cons, List.forIn_cons]
      exact ih

/-- Names make a procedure, if no two of them are equal. -/
theorem newProcedure_names (read : item code (.str "parameters") s = .ok params t) (lists : t.Lists names params) :
    (names.Nodup → ∃ mark u, newProcedure code closed s = .ok (.procedure mark code closed) u) ∧
      (¬names.Nodup → ∃ text, newProcedure code closed s =
        .error (.fault (.value (.duplicateParameters text))) t) := by
  have count := Value.distinct_length_iff [] names
  simp only [List.map_nil, List.length_nil, Nat.zero_add, List.not_mem_nil, not_false_eq_true, implies_true,
    and_true] at count
  obtain ⟨text, written⟩ := lists.shown
  unfold newProcedure
  rw [bind_of_ok read, bind_of_ok lists.members, bind_of_ok (checkKeys_names names t), bind_of_ok lists.length]
  refine ⟨fun nodup => ?_, fun twice => ?_⟩
  · rw [if_neg (not_not.mpr (count.mpr nodup))]
    exact ⟨_, _, rfl⟩
  · rw [if_pos (count.not.mpr twice), bind_of_ok written]
    exact ⟨text, rfl⟩

/-- A procedure was made while its code listed some names as its parameters. -/
def Accepts (proc : Value) (names : List String) : Prop :=
  ∃ mark code closed s t, proc = .procedure mark code closed ∧ s.Declares code names ∧
    newProcedure code closed s = .ok proc t

/-- The parameters that a procedure was made with are distinct. -/
theorem Accepts.nodup {proc : Value} (accepts : Accepts proc names) : names.Nodup := by
  obtain ⟨mark, code, closed, s, t, rfl, ⟨params, s', read, plain, members⟩, made⟩ := accepts
  unfold newProcedure at made
  rw [bind_of_ok read, bind_of_ok (members_of_head plain members), bind_of_ok (checkKeys_names names s'),
    bind_of_ok (length_of_head plain members)] at made
  by_contra twice
  have count := Value.distinct_length_iff [] names
  simp only [List.map_nil, List.length_nil, Nat.zero_add, List.not_mem_nil, not_false_eq_true, implies_true,
    and_true] at count
  rw [if_pos (count.not.mpr twice)] at made
  obtain ⟨text, s'', -, faulted⟩ := ok_of_bind made
  cases faulted

end Calculus

end Knot
