import Knot.Proofs.Checks.Integers
import Knot.Proofs.Grids.Discovered

/-!
Checks of data. Numbers, texts, nothing and whatever lists, tuples and dictionaries nest of them always
compare, and so do arrays of such data, with each other and with what makes an array. What keeps a check from
its verdict is a value beside an array whose rows are not of one length, and an integer that is too long to be
written where the verdict is to be worded.
-/

namespace Knot

open Run

namespace Value

/-! Plain data always compares. -/

/-- A comparison that ends with a truth value. -/
def Decided (x : Except Fault Bool) : Prop := ∃ truth, x = .ok truth

section

variable {arrays : Value → Value → Except Fault Bool} {a b : Value}

theorem decided_ok (truth : Bool) : Decided (.ok truth) := ⟨truth, rfl⟩

theorem decided_both {x y : Except Fault Bool} (first : Decided x) (second : Decided y) :
    Decided (do if ← x then y else return false) := by
  obtain ⟨truth, rfl⟩ := first
  cases truth with
  | true => exact second
  | false => exact decided_ok false

theorem memberEqual_decided (equal : Decided (equalWith arrays a b)) : Decided (memberEqual arrays a b) := by
  unfold memberEqual orSame
  split
  · exact decided_ok true
  · exact equal

theorem membersEqual_decided {xs ys : List Value}
    (members : ∀ x ∈ xs, ∀ y ∈ ys, Decided (memberEqual arrays x y)) : Decided (membersEqual arrays xs ys) := by
  induction xs generalizing ys with
  | nil => cases ys <;> simp [membersEqual, Decided]
  | cons x xs ih =>
      cases ys with
      | nil => simp [membersEqual, Decided]
      | cons y ys =>
          rw [membersEqual]
          exact decided_both (members x (.head _) y (.head _)) (ih fun x member y member' =>
            members x (.tail _ member) y (.tail _ member'))

theorem entriesEqual_decided {xs ys : List (Value × Value)}
    (values : ∀ x ∈ xs, ∀ y ∈ ys, Decided (memberEqual arrays x.2 y.2)) : Decided (entriesEqual arrays xs ys) := by
  induction xs with
  | nil => exact ⟨_, by rw [entriesEqual]⟩
  | cons x xs ih =>
      rw [entriesEqual]
      split
      · next found =>
          exact decided_both (values x (.head _) _ (List.mem_of_find?_eq_some found))
            (ih fun x member => values x (.tail _ member))
      · exact decided_ok false

theorem Plain.equalWith_decided (plain : a.IsPlain) (plain' : b.IsPlain) : Decided (equalWith arrays a b) := by
  induction plain generalizing b with
  | list members ih =>
      rw [equalWith.eq_def]
      cases plain' with
      | list members' =>
          dsimp only
          split
          · exact membersEqual_decided fun x member y member' => memberEqual_decided (ih x member (members' y member'))
          · exact decided_ok false
      | _ => exact decided_ok _
  | tuple members ih =>
      rw [equalWith.eq_def]
      cases plain' with
      | tuple members' =>
          exact membersEqual_decided fun x member y member' => memberEqual_decided (ih x member (members' y member'))
      | _ => exact decided_ok _
  | dict keys values ihk ih =>
      rw [equalWith.eq_def]
      cases plain' with
      | dict keys' values' =>
          dsimp only
          split
          · exact entriesEqual_decided fun x member y member' => memberEqual_decided (ih x member (values' y member'))
          · exact decided_ok false
      | _ => exact decided_ok _
  | _ =>
      rw [equalWith.eq_def]
      cases plain' <;> exact decided_ok _

theorem Plain.equal_decided (plain : a.IsPlain) (plain' : b.IsPlain) : Decided (equal a b) := by
  unfold equal
  cases max a.arrayDepth b.arrayDepth with
  | zero => exact plain.equalWith_decided plain'
  | succ depth => exact plain.equalWith_decided plain'

end

end Value

/-! Grids of data always compare. -/

namespace Grid

open Value

variable {dtype left right : DType} {v w : Value} {g g' : Grid}

/-- A number of a grid has a double next to it. -/
theorem Held.toDouble (held : Held dtype v) (some : dtype ≠ .object) (none : ∀ width, dtype ≠ .text width) :
    ∃ x, Grid.toDouble v = .ok x := by
  cases v with
  | bool b => exact Number.toFloat_word (i := b.toNat) (.inl (by cases b <;> decide))
  | int i =>
      cases dtype with
      | int64 => exact Number.toFloat_word (.inl held)
      | uint64 => exact Number.toFloat_word (.inr held)
      | object => exact absurd rfl some
      | _ => cases held
  | float mark x => exact ⟨x, rfl⟩
  | _ =>
      cases dtype with
      | object => exact absurd rfl some
      | text width => exact absurd rfl (none width)
      | _ => cases held

theorem Held.elementEqual_decided (held : Held left v) (held' : Held right w) :
    Decided (elementEqual Value.equal left right v w) := by
  have whole : Decided (Value.equal v w) := Plain.equal_decided held.isPlain held'.isPlain
  have numbers (some : left ≠ .object) (none : ∀ width, left ≠ .text width) (some' : right ≠ .object)
      (none' : ∀ width, right ≠ .text width) : Decided (if left = .float64 ∨ right = .float64 then do
        return (← Grid.toDouble v) == (← Grid.toDouble w)
      else Value.equal v w) := by
    obtain ⟨x, first⟩ := held.toDouble some none
    obtain ⟨y, second⟩ := held'.toDouble some' none'
    split
    · rw [first, second]
      exact ⟨_, rfl⟩
    · exact whole
  cases left with
  | object => exact whole
  | text width =>
      cases right with
      | object | text => exact whole
      | _ => exact decided_ok false
  | _ =>
      cases right with
      | object => exact whole
      | text width => exact decided_ok false
      | _ => exact numbers nofun nofun nofun nofun

theorem mem_of_mem_rows {α : Type} {width count : Nat} {data row : List α} {x : α}
    (member : row ∈ rows width count data) (inside : x ∈ row) : x ∈ data := by
  induction count generalizing data with
  | zero => cases member
  | succ count ih =>
      rcases List.mem_cons.mp member with rfl | member
      · exact List.mem_of_mem_take inside
      · exact List.mem_of_mem_drop (ih member)

theorem mem_of_mem_spread {α : Type} {shape target : List Nat} {data : List α} {x : α}
    (member : x ∈ spread shape target data) : x ∈ data := by
  induction shape generalizing target data with
  | nil => exact member
  | cons n shape ih =>
      cases target with
      | nil => exact member
      | cons m target =>
          have inner (member : x ∈ ((rows (size shape) n data).map (spread shape target)).flatten) :
              x ∈ data := by
            obtain ⟨part, inside, member⟩ := List.mem_flatten.mp member
            obtain ⟨row, inside', rfl⟩ := List.mem_map.mp inside
            exact mem_of_mem_rows inside' (ih member)
          rw [spread] at member
          split at member
          · exact inner member
          · obtain ⟨part, inside, member⟩ := List.mem_flatten.mp member
            obtain rfl := List.eq_of_mem_replicate inside
            exact inner member

theorem Sound.equal_decided (sound : g.Sound) (sound' : g'.Sound) : Decided (Grid.equal Value.equal g g') := by
  unfold Grid.equal
  split
  · next same =>
      have met : meeting g g' = .ok (g.shape, (stretch g.shape g.shape g.data).zip (stretch g'.shape g.shape g'.data)) := by
        rw [meeting, ← same, stretched?_self]
      obtain ⟨truths, compared, -⟩ := mapM_total (P := fun _ => True)
        (f := fun pair => elementEqual Value.equal g.dtype g'.dtype pair.1 pair.2)
        ((stretch g.shape g.shape g.data).zip (stretch g'.shape g.shape g'.data)) fun pair member => by
          obtain ⟨first, second⟩ := List.of_mem_zip member
          obtain ⟨truth, equal⟩ := (sound _ (mem_of_mem_spread first)).elementEqual_decided
            (sound' _ (mem_of_mem_spread second))
          exact ⟨truth, equal, trivial⟩
      refine ⟨truths.all id, ?_⟩
      rw [equalities, met]
      change (List.mapM (fun pair => elementEqual Value.equal g.dtype g'.dtype pair.1 pair.2)
        ((stretch g.shape g.shape g.data).zip (stretch g'.shape g.shape g'.data)) >>= fun truths =>
          pure (g.shape, truths)) >>= (fun outcome => pure (outcome.2.all id)) = _
      rw [compared]
      rfl
  · exact decided_ok false

end Grid

/-! What a store holds as data. -/

namespace Value

/-- Data in which only certain integers occur: without arrays, or an array of what its type holds. -/
inductive Data (of : Int → Prop) : Value → Prop
  | plain {v : Value} : v.Plain of → Data of v
  | array {mark : Nat} {dtype : DType} {shape : List Nat} {data : List Value} :
      Grid.Sound ⟨dtype, shape, data⟩ → (∀ v ∈ data, v.Plain of) → Data of (array mark dtype shape data)

variable {of : Int → Prop} {v : Value}

theorem Plain.not_isArray (plain : v.Plain of) : v.isArray = false := by
  cases plain <;> rfl

/-- Data makes a grid of what its type holds, unless it is no array and has rows of different lengths. -/
theorem Data.grid (data : v.Data of) : (∃ g, Grid.ofValue v = .ok g ∧ g.Sound) ∨
    v.isArray = false ∧ Grid.Ragged v ∧ ∃ axes shape, Grid.ofValue v = .error (.value (.ragged axes shape)) := by
  cases data with
  | plain plain => exact (Grid.ofValue_plain plain.isPlain).imp id fun fails => ⟨plain.not_isArray, fails⟩
  | array sound _ => exact .inl ⟨_, rfl, sound⟩

end Value

/-- One of two values is an array, and the other one has rows that are not of one length. -/
def Uneven (a e : Value) : Prop := a.isArray = true ∧ Grid.Ragged e ∨ Grid.Ragged a ∧ e.isArray = true

/-- A value that a store holds data for, both where it is compared and where it is shown. -/
structure Store.Holds (s : Store) (of : Int → Prop) (v : Value) : Prop where
  now : (s.now v).Data of
  view : (s.view v).Data of

section

variable {of : Int → Prop} {s : Store} {a e : Value}

/-- Data always compares, unless it is uneven. -/
theorem Store.equals_data (first : s.Holds of a) (second : s.Holds of e) : Value.Decided (s.equals a e) ∨
    Uneven (s.now a) (s.now e) ∧ ∃ axes shape, s.equals a e = .error (.value (.ragged axes shape)) := by
  unfold Store.equals
  by_cases arrays : ((s.now a).isArray || (s.now e).isArray) = true
  · rw [if_pos arrays]
    rw [Bool.or_eq_true] at arrays
    rcases first.now.grid with ⟨g, made, sound⟩ | ⟨plain, ragged, axes, shape, fails⟩
    · rcases second.now.grid with ⟨g', made', sound'⟩ | ⟨plain, ragged, axes, shape, fails⟩
      · rw [made, made']
        exact .inl (sound.equal_decided sound')
      · rw [made, fails]
        have array := arrays.resolve_right (by rw [plain]; exact Bool.false_ne_true)
        exact .inr ⟨.inl ⟨array, ragged⟩, axes, shape, rfl⟩
    · rw [fails]
      have array := arrays.resolve_left (by rw [plain]; exact Bool.false_ne_true)
      exact .inr ⟨.inr ⟨ragged, array⟩, axes, shape, rfl⟩
  · rw [if_neg arrays]
    rw [Bool.or_eq_true, not_or] at arrays
    obtain ⟨none, none'⟩ := arrays
    have plain {v : Value} (data : v.Data of) (none : ¬v.isArray = true) : v.IsPlain := by
      cases data with
      | plain plain => exact plain.isPlain
      | array => exact absurd rfl none
    exact .inl (Value.Plain.equal_decided (plain first.now none) (plain second.now none'))

end

/-! What data looks like. -/

/-- A text, or the fault of an integer that is too long to be written. -/
def Worded (of : Int → Prop) {α : Type} (x : Except Fault α) : Prop :=
  (∃ y, x = .ok y) ∨ x = .error (.value .integerTooLong) ∧ ∃ i, of i ∧ ¬Written i

namespace Worded

variable {of : Int → Prop} {α β : Type} {x : Except Fault α}

theorem ok (y : α) : Worded of (.ok y) := .inl ⟨y, rfl⟩

theorem bind {f : α → Except Fault β} (first : Worded of x) (second : ∀ y, Worded of (f y)) :
    Worded of (x >>= f) := by
  rcases first with ⟨y, rfl⟩ | ⟨rfl, long⟩
  · exact second y
  · exact .inr ⟨rfl, long⟩

theorem map (f : α → β) (first : Worded of x) : Worded of (f <$> x) := by
  rcases first with ⟨y, rfl⟩ | ⟨rfl, long⟩
  · exact .inl ⟨f y, rfl⟩
  · exact .inr ⟨rfl, long⟩

theorem integerText {i : Int} (among : of i) : Worded of (integerText i) := by
  rw [Knot.integerText]
  by_cases short : i.natAbs < Nat.pow 10 Text.digitLimit
  · rw [if_pos short]
    exact .ok _
  · rw [if_neg short]
    refine .inr ⟨rfl, i, among, fun ⟨text, written⟩ => ?_⟩
    rw [Knot.integerText, if_neg short] at written
    cases written

/-- Where every integer can be written, there is a text. -/
theorem exists_ok (worded : Worded of x) (written : ∀ i, of i → Written i) : ∃ y, x = .ok y :=
  worded.resolve_right fun ⟨_, i, among, long⟩ => long (written i among)

end Worded

namespace Value

variable {of : Int → Prop} {v : Value} (frames : Nat → Frame)

theorem showAll_worded {items : List Value} (each : ∀ v ∈ items, Worded of (v.showWith frames)) :
    Worded of (showAll frames items) := by
  induction items with
  | nil => rw [showAll]; exact .ok []
  | cons v items ih =>
      rw [showAll]
      exact (each v (.head _)).bind fun _ => (ih fun v member => each v (.tail _ member)).bind fun _ => .ok _

theorem showEntries_worded {entries : List (Value × Value)} (keys : ∀ e ∈ entries, Worded of (e.1.showWith frames))
    (values : ∀ e ∈ entries, Worded of (e.2.showWith frames)) : Worded of (showEntries frames entries) := by
  induction entries with
  | nil => rw [showEntries]; exact .ok []
  | cons e entries ih =>
      rw [showEntries]
      exact (keys e (.head _)).bind fun _ => (values e (.head _)).bind fun _ =>
        (ih (fun e member => keys e (.tail _ member)) fun e member => values e (.tail _ member)).bind fun _ => .ok _

theorem Plain.showWith_worded (plain : v.Plain of) : Worded of (v.showWith frames) := by
  induction plain with
  | nothing | bool | float | str => rw [showWith.eq_def]; exact .ok _
  | @int i among =>
      rw [Book.showWith_int]
      exact .integerText among
  | list _ ih => rw [showWith.eq_def]; exact (showAll_worded frames ih).map listText
  | tuple _ ih => rw [showWith.eq_def]; exact (showAll_worded frames ih).map tupleText
  | dict _ _ keys values => rw [showWith.eq_def]; exact (showEntries_worded frames keys values).map dictText

theorem Data.showWith_worded (data : v.Data of) : Worded of (v.showWith frames) := by
  cases data with
  | plain plain => exact plain.showWith_worded frames
  | array _ elements =>
      have texts := showAll_worded frames fun v member => (elements v member).showWith_worded frames
      rw [showWith.eq_def]
      exact texts.bind fun _ => .ok _

end Value

/-! Checks of data. -/

/-- How a check of data without a label ends. It changes nothing. -/
inductive Judged (of : Int → Prop) (s : Store) (a e : Value) : EStateM.Result Stop Store Value → Prop
  | passed : Judged of s a e (.ok a s)
  | failed (text : String) : Judged of s a e (.error (.fault (.mismatch a e .none text)) s)
  | ragged {axes : Nat} {shape : String} : Uneven (s.now a) (s.now e) →
      Judged of s a e (.error (.fault (.value (.ragged axes shape))) s)
  | unwritten {i : Int} : of i → ¬Written i → Judged of s a e (.error (.fault (.value .integerTooLong)) s)

section

variable {of : Int → Prop} {s : Store} {a e : Value}

theorem Store.bareText_worded (first : s.Holds of a) (second : s.Holds of e) : Worded of (s.bareText a e) :=
  (second.view.showWith_worded s.frame).bind fun _ => (first.view.showWith_worded s.frame).bind fun _ => .ok _

theorem Store.failureText_worded (first : s.Holds of a) (second : s.Holds of e) (label : String) :
    Worded of (s.failureText a e label) :=
  (second.view.showWith_worded s.frame).bind fun _ => (first.view.showWith_worded s.frame).bind fun _ => .ok _

theorem assertEq_judged (k : Machine) (first : s.Holds of a) (second : s.Holds of e) :
    Judged of s a e (Builtin.call k .assertEq [a, e] [] s) := by
  have verdict := isEqual_eq s a e
  change Judged of s a e (assertEq a e .none s)
  rcases Store.equals_data first second with ⟨truth, decided⟩ | ⟨uneven, axes, shape, fails⟩
  · rw [decided] at verdict
    cases truth with
    | true =>
        have run : assertEq a e .none s = .ok a s := bind_of_ok verdict
        rw [run]
        exact .passed
    | false =>
        have run : assertEq a e .none s = (mismatch a e .none >>= Run.fault) s := bind_of_ok verdict
        have worded := unlabelled_mismatch s a e
        rw [run]
        rcases Store.bareText_worded first second with ⟨text, said⟩ | ⟨long, i, among, unwritten⟩
        · rw [said] at worded
          rw [bind_of_ok worded]
          exact .failed text
        · rw [long] at worded
          rw [bind_of_error worded]
          exact .unwritten among unwritten
  · rw [fails] at verdict
    have run : assertEq a e .none s = .error (.fault (.value (.ragged axes shape))) s := bind_of_error verdict
    rw [run]
    exact .ragged uneven

/-- A lenient run gives back the first of two values that it compares, and records whether they are equal. -/
theorem Book.check_records (k : Machine) (b : Book) (label : Option String) (unmarked : s.table? 0 = none)
    (lenient : b.strict = false) (first : s.Holds of a) (second : s.Holds of e)
    (even : ¬Uneven (s.now a) (s.now e)) (written : ∀ i, of i → Written i) :
    ∃ passed t, b.check k ⟨a, e, label⟩ s = .ok a t ∧ b.Adds label passed s t := by
  obtain ⟨truth, decided⟩ := (Store.equals_data first second).resolve_right fun fails => even fails.1
  obtain ⟨text, worded⟩ := (Store.failureText_worded first second
    (b.label label (s.items b.list []).length)).exists_ok written
  have ends := b.judged_ends ⟨a, e, label⟩ s
  rw [b.check_eq k ⟨a, e, label⟩ s unmarked]
  obtain ⟨t, run⟩ : ∃ t, b.judged s a e label = .ok a t := by
    unfold Book.judged
    rw [decided]
    cases truth with
    | true => exact ⟨_, rfl⟩
    | false =>
        dsimp only
        rw [worded, lenient]
        exact ⟨_, rfl⟩
  rw [run] at ends
  cases ends with
  | passed _ adds => exact ⟨true, t, run, adds⟩
  | failed _ _ adds => exact ⟨false, t, run, adds⟩

end

/-- Two words in an array. -/
def wordPair (mark : Nat) : Value := .array mark .int64 [2] [.int 1, .int 2]

/-- A text and a word in a tuple. -/
def mixedPair : Value := .tuple 17 [.str "x", .int 1]

/-- A run that only records. -/
def lenientBook : Book := ⟨18, "checks", false, false, 19, by decide⟩

end Knot
