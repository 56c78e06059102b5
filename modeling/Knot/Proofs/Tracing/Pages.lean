import Knot.Proofs.Renaming.Printer

/-!
What can be written. A value has a text and a page unless a whole number in it is too long, or one of its
procedures or applications is not closed in an environment, or the code of a procedure lacks a part.
-/

namespace Knot

/-- A number of few enough digits to be written. -/
def IsShort (n : Nat) : Prop := n < Nat.pow 10 Text.digitLimit

theorem IsShort.of_le_digits {n : Nat} (small : n ≤ Text.digitLimit) : IsShort n := by
  unfold IsShort
  generalize Text.digitLimit = digits at small
  exact small.trans_lt (Nat.lt_pow_self (by decide))

theorem IsShort.of_le {m n : Nat} (short : IsShort n) (fewer : m ≤ n) : IsShort m := Nat.lt_of_le_of_lt fewer short

namespace Value

/-- An environment that nothing or another environment encloses. -/
def ClosesIn : Value → Prop
  | environment _ none | environment _ (environment ..) => True
  | _ => False

/-- A body and parameters. -/
def IsCode : Value → Prop
  | dict _ entries => hasKey "body" entries = true ∧ hasKey "parameters" entries = true
  | _ => False

/-- What a value itself needs in order to be written. -/
def IsPlainlyWritable : Value → Prop
  | int i => IsShort i.natAbs
  | range _ start stop step => ∀ i ∈ [start, stop, step], IsShort i.natAbs
  | procedure _ code env => code.IsCode ∧ env.ClosesIn
  | application _ _ _ env => env.ClosesIn
  | _ => True

/-- A value that can be written, whatever it is made of. -/
inductive Writable : Value → Prop
  | intro {v : Value} : v.IsPlainlyWritable → (∀ u ∈ v.children, Writable u) → Writable v

theorem Writable.self {v : Value} (writable : v.Writable) : v.IsPlainlyWritable := by
  cases writable with
  | intro self _ => exact self

theorem Writable.child {u v : Value} (writable : v.Writable) (member : u ∈ v.children) : u.Writable := by
  cases writable with
  | intro _ children => exact children u member

end Value

/-- A computation that has a value. -/
def Succeeds {α : Type} (x : Except Fault α) : Prop := ∃ a, x = .ok a

namespace Succeeds

variable {α β : Type}

theorem ok (a : α) : Succeeds (.ok a) := ⟨a, rfl⟩

theorem pure (a : α) : Succeeds (Pure.pure a) := ⟨a, rfl⟩

theorem bind {x : Except Fault α} {f : α → Except Fault β} (first : Succeeds x)
    (second : ∀ a, Succeeds (f a)) : Succeeds (x >>= f) := by
  obtain ⟨a, rfl⟩ := first
  exact second a

theorem map {x : Except Fault α} (f : α → β) (first : Succeeds x) : Succeeds (f <$> x) := by
  obtain ⟨a, rfl⟩ := first
  exact ok (f a)

end Succeeds

open Succeeds

theorem integerText_succeeds {i : Int} (short : IsShort i.natAbs) : Succeeds (integerText i) := ⟨_, if_pos short⟩

namespace Value

theorem requireEntry_succeeds {key : String} {entries : List (Value × Value)}
    (present : hasKey key entries = true) : Succeeds (requireEntry key entries) := ⟨(), if_pos present⟩

theorem isInner_succeeds {env : Value} (closes : env.ClosesIn) : Succeeds (isInner env) := by
  unfold ClosesIn at closes
  split at closes
  · exact ok _
  · exact ok _
  · exact closes.elim

section

variable {frames : Nat → Frame}

theorem showAll_succeeds (vs : List Value) (members : ∀ v ∈ vs, Succeeds (showWith frames v)) :
    Succeeds (showAll frames vs) := by
  induction vs with
  | nil =>
      rw [showAll]
      exact ok _
  | cons v rest ih =>
      have rest := ih fun u member => members u (by simp [member])
      rw [showAll]
      exact (members v (by simp)).bind fun _ => rest.bind fun _ => pure _

theorem showEntries_succeeds (entries : List (Value × Value))
    (keys : ∀ e ∈ entries, Succeeds (showWith frames e.1))
    (values : ∀ e ∈ entries, Succeeds (showWith frames e.2)) : Succeeds (showEntries frames entries) := by
  induction entries with
  | nil =>
      rw [showEntries]
      exact ok _
  | cons e rest ih =>
      have rest := ih (fun u member => keys u (by simp [member])) fun u member => values u (by simp [member])
      rw [showEntries]
      exact (keys e (by simp)).bind fun _ => (values e (by simp)).bind fun _ => rest.bind fun _ => pure _

theorem showEntry_succeeds {key : String} (entries : List (Value × Value)) (present : hasKey key entries = true)
    (values : ∀ e ∈ entries, Succeeds (showPlain frames e.2)) : Succeeds (showEntry frames key entries) := by
  induction entries with
  | nil => cases present
  | cons e rest ih =>
      have others := fun u (member : u ∈ rest) => values u (List.mem_cons_of_mem _ member)
      rw [showEntry.eq_def]
      dsimp only
      split
      · rename_i k same
        split
        · exact values e (by simp)
        · rename_i other
          exact ih (by simpa [hasKey, same, other] using present) others
      · rename_i other
        refine ih ?_ others
        obtain ⟨k, v⟩ := e
        cases k with
        | str k => exact (other k rfl).elim
        | _ => simpa [hasKey] using present

/-- What can be written is, as a part of a value and for a reader. -/
theorem Writable.shown {v : Value} (writable : v.Writable) :
    Succeeds (showWith frames v) ∧ Succeeds (showPlain frames v) := by
  induction v using Value.induction_nested with
  | step v ih nested =>
      have here := writable.self
      have part {u : Value} (member : u ∈ v.children) := ih u member (writable.child member)
      have text : Succeeds (showWith frames v) := by
        rw [showWith.eq_def]
        cases v with
        | int i => exact integerText_succeeds here
        | list _ items | tuple _ items => exact map _ (showAll_succeeds items fun u member => (part member).1)
        | array _ _ _ items => exact (showAll_succeeds items fun u member => (part member).1).bind fun _ => pure _
        | dict _ entries =>
            exact map _ (showEntries_succeeds entries
              (fun e present => (part (List.mem_append_left _ (List.mem_map_of_mem present))).1)
              (fun e present => (part (List.mem_append_right _ (List.mem_map_of_mem present))).1))
        | range _ start stop step =>
            have short {i : Int} (member : i ∈ [start, stop, step]) := integerText_succeeds (here i member)
            refine (short (by simp)).bind fun _ => (short (by simp)).bind fun _ => ?_
            split
            · exact pure _
            · exact (short (by simp)).bind fun _ => pure _
        | method _ owner m =>
            have owned := (part (u := owner) (by simp [children])).1
            dsimp only
            split
            · exact owned.bind fun _ => pure _
            · exact pure _
        | environment id outer =>
            have enclosed := (part (u := outer) (by simp [children])).1
            dsimp only
            split
            · exact pure _
            · exact enclosed.bind fun _ => pure _
        | procedure mark code env =>
            have closed := (part (u := env) (by simp [children])).1
            cases code with
            | dict m entries =>
                refine (requireEntry_succeeds here.1.1).bind fun _ =>
                  (showEntry_succeeds entries here.1.2 fun e present => ?_).bind fun _ =>
                  (isInner_succeeds here.2).bind fun inner => ?_
                · have value : e.2 ∈ (dict m entries).children :=
                    List.mem_append_right _ (List.mem_map_of_mem present)
                  have code := writable.child (u := dict m entries) (by simp [children])
                  exact (nested (dict m entries) (by simp [children]) e.2 value (code.child value)).2
                · cases inner with
                  | true => exact closed.bind fun _ => pure _
                  | false => exact pure _
            | _ => exact here.1.elim
        | var _ sym => exact (part (u := sym) (by simp [children])).1.bind fun _ => pure _
        | application _ head args env =>
            refine (isInner_succeeds here).bind fun inner =>
              (part (u := head) (by simp [children])).1.bind fun _ =>
              (part (u := args) (by simp [children])).1.bind fun _ => ?_
            cases inner with
            | true => exact (part (u := env) (by simp [children])).1.bind fun _ => pure _
            | false => exact pure _
        | thunk _ generator =>
            dsimp only
            split
            · exact ok _
            · exact (part (u := generator) (by simp [children])).2.bind fun _ => pure _
        | tally _ d c =>
            exact (part (u := d) (by simp [children])).1.bind fun _ =>
              (part (u := c) (by simp [children])).1.bind fun _ => pure _
        | checkRun _ name strict trace results =>
            exact (part (u := name) (by simp [children])).1.bind fun _ =>
              (part (u := strict) (by simp [children])).1.bind fun _ =>
              (part (u := trace) (by simp [children])).1.bind fun _ =>
              (part (u := results) (by simp [children])).1.bind fun _ => pure _
        | _ => exact ok _
      refine ⟨text, ?_⟩
      rw [showPlain.eq_def]
      cases v with
      | str => exact ok _
      | array _ dtype shape data =>
          have texts := showAll_succeeds data fun u member => (part member).1
          dsimp only
          split
          · exact (part (by simp [children])).2
          · exact texts.bind fun _ => pure _
      | _ => exact text

theorem docAll_succeeds (vs : List Value) (members : ∀ v ∈ vs, Succeeds (docWith frames v)) :
    Succeeds (docAll frames vs) := by
  induction vs with
  | nil =>
      rw [docAll]
      exact ok _
  | cons v rest ih =>
      have rest := ih fun u member => members u (by simp [member])
      rw [docAll]
      exact (members v (by simp)).bind fun _ => rest.bind fun _ => pure _

theorem docEntries_succeeds (entries : List (Value × Value))
    (keys : ∀ e ∈ entries, Succeeds (docWith frames e.1))
    (values : ∀ e ∈ entries, Succeeds (docWith frames e.2)) : Succeeds (docEntries frames entries) := by
  induction entries with
  | nil =>
      rw [docEntries]
      exact ok _
  | cons e rest ih =>
      have rest := ih (fun u member => keys u (by simp [member])) fun u member => values u (by simp [member])
      rw [docEntries]
      exact (keys e (by simp)).bind fun _ => (values e (by simp)).bind fun _ => rest.bind fun _ => pure _

/-- What can be written has a page. -/
theorem Writable.paged {v : Value} (writable : v.Writable) : Succeeds (docWith frames v) := by
  induction v using Value.induction_children with
  | step v ih =>
      have part {u : Value} (member : u ∈ v.children) := ih u member (writable.child member)
      have text : Succeeds (showWith frames v) := writable.shown.1
      rw [docWith.eq_def]
      cases v with
      | str => exact ok _
      | list _ items | tuple _ items =>
          exact (docAll_succeeds items fun u member => part member).bind fun _ => pure _
      | dict _ entries =>
          exact (docEntries_succeeds entries
            (fun e present => part (List.mem_append_left _ (List.mem_map_of_mem present)))
            (fun e present => part (List.mem_append_right _ (List.mem_map_of_mem present)))).bind fun _ => pure _
      | var _ sym => exact text.bind fun _ => (part (by simp [children])).bind fun _ => pure _
      | tally _ d c =>
          exact text.bind fun _ => (part (u := d) (by simp [children])).bind fun _ =>
            (part (u := c) (by simp [children])).bind fun _ => pure _
      | checkRun _ name strict trace results =>
          exact text.bind fun _ => (part (u := name) (by simp [children])).bind fun _ =>
            (part (u := strict) (by simp [children])).bind fun _ =>
            (part (u := trace) (by simp [children])).bind fun _ =>
            (part (u := results) (by simp [children])).bind fun _ => pure _
      | _ => exact map _ text

end

end Value

end Knot
