import Knot.Proofs.Calls.Copies
import Knot.Proofs.Checks.Faults
import Mathlib.Data.List.Forall2

/-!
What one check of a run does: it decides whether two values are equal and adds an entry to the run's
list, or fails before anything is recorded.
-/

namespace Knot

open Run

/-- A check run that was made without a list of results, so that it has a list of its own. -/
structure Book where
  mark : Nat
  name : String
  strict : Bool
  trace : Bool
  list : Nat
  made : list ≠ 0
  deriving DecidableEq

/-- What is recorded of a check. -/
structure Entry where
  label : String
  passed : Bool
  deriving DecidableEq

/-- The pair that stands for an entry. -/
def Entry.written (mark : Nat) (e : Entry) : Value := .tuple mark [.str e.label, .bool e.passed]

/-- A list of values that entries are written as. -/
abbrev Listed (vs : List Value) (entries : List Entry) : Prop :=
  List.Forall₂ (fun v e => ∃ mark, v = Entry.written mark e) vs entries

namespace Book

def results (b : Book) : Value := .list b.list []

def run (b : Book) : Value :=
  .checkRun b.mark (.str b.name) (.bool b.strict) (.bool b.trace) b.results

/-- The entries that a run holds. -/
def Records (b : Book) (s : Store) (entries : List Entry) : Prop :=
  Listed (s.items b.list []) entries

theorem Records.length {b : Book} {s : Store} {entries : List Entry} (records : b.Records s entries) :
    (s.items b.list []).length = entries.length := records.length_eq

/-- The label of a check: the one that is given, if it has any text, or else the run's name with the
number of checks before. -/
def label (b : Book) (given : Option String) (n : Nat) : String :=
  match given with
  | some text => if text = "" then s!"{b.name}[{n}]" else text
  | none => s!"{b.name}[{n}]"

end Book

/-- A label as it is passed to a check. -/
def labelGiven (given : Option String) : Value := (given.map .str).getD .none

namespace Store

/-- The store with one more entry in a list. -/
def recorded (s : Store) (list : Nat) (e : Entry) : Store :=
  { s with
    nextMark := s.nextMark + 1
    contents := s.contents.assign list (s.items list [] ++ [e.written s.nextMark]) }

/-- The store with some more text printed. -/
def printed (s : Store) (text : String) : Store := { s with out := s.out ++ text }

/-- Whether two values are equal as they are now. -/
def equals (s : Store) (a e : Value) : Except Fault Bool :=
  if (s.now a).isArray || (s.now e).isArray then do
    let x ← Grid.ofValue (s.now a)
    let y ← Grid.ofValue (s.now e)
    Grid.equal Value.equal x y
  else (s.now a).equal (s.now e)

/-- What the failure of a check says. -/
def failureText (s : Store) (a e : Value) (label : String) : Except Fault String := do
  let expected ← (s.view e).showWith s.frame
  let actual ← (s.view a).showWith s.frame
  return label ++ ": " ++ "expected " ++ expected ++ ", got " ++ actual

theorem now_of_atom (s : Store) {v : Value} (atom : ∀ c, v.withContents c [] = v) : s.now v = v :=
  atom _

end Store

theorem ofExcept_bind {α β : Type} (x : Except Fault α) (f : α → Except Fault β) :
    (Run.ofExcept x >>= fun a => Run.ofExcept (f a)) = Run.ofExcept (x >>= f) := by
  cases x <;> rfl

theorem isEqual_eq (s : Store) (a e : Value) : isEqual a e s = Run.ofExcept (s.equals a e) s := by
  have whole : isEqual a e s = (if (s.now a).isArray || (s.now e).isArray then do
      let x ← Run.ofExcept (Grid.ofValue (s.now a))
      let y ← Run.ofExcept (Grid.ofValue (s.now e))
      Run.ofExcept (Grid.equal Value.equal x y)
    else Run.ofExcept ((s.now a).equal (s.now e))) s := rfl
  rw [whole, Store.equals]
  split
  · simp only [ofExcept_bind]
  · rfl

theorem join_texts (s : Store) (x y : String) :
    binary .add (.str x) (.str y) s = .ok (.str (x ++ y)) (s.skip 1) := rfl

theorem shown_eq (s : Store) (v : Value) : shown v s = Run.ofExcept ((s.view v).showWith s.frame) s := rfl

theorem view_text (s : Store) (x : String) : s.view (.str x) = .str x := rfl

theorem shownPlain_text (s : Store) (x : String) : shownPlain (.str x) s = .ok x s := by
  simp only [shownPlain, view_text, Value.showPlain]
  rfl

theorem mismatch_eq (s : Store) (a e : Value) {label : String} (worded : label ≠ "") :
    mismatch a e (.str label) s =
      (Run.ofExcept (s.failureText a e label) >>= fun text =>
        pure (Fault.mismatch a e (.str label) text)) (s.skip 1) := by
  have present : (Value.str label).truth = .ok true := by simp [Value.truth, worded]
  have same : now (.str label) s = .ok (.str label) s := by
    have same : s.now (.str label) = .str label := s.now_of_atom fun _ => rfl
    change EStateM.Result.ok (s.now (.str label)) s = _
    rw [same]
  unfold mismatch
  rw [bind_of_ok same, present]
  rw [bind_of_ok (show Run.ofExcept (.ok true) s = .ok true s from rfl)]
  dsimp only
  rw [if_pos rfl, bind_of_ok (join_texts s label ": "), bind_of_ok (shownPlain_text (s.skip 1) _)]
  have read (v : Value) : shown v (s.skip 1) = Run.ofExcept ((s.view v).showWith s.frame) (s.skip 1) := by
    rw [shown_eq, s.skip_view]
    rfl
  have e' := read e
  have a' := read a
  unfold Store.failureText
  cases wanted : (s.view e).showWith s.frame with
  | error f =>
      rw [wanted] at e'
      rw [bind_of_error e']
      rfl
  | ok expected =>
      rw [wanted] at e'
      rw [bind_of_ok e']
      cases given : (s.view a).showWith s.frame with
      | error f =>
          rw [given] at a'
          rw [bind_of_error a']
          rfl
      | ok actual =>
          rw [given] at a'
          rw [bind_of_ok a']
          rfl

/-- The page that shows a text under another one. -/
def entryPage (key text : String) : String :=
  (Doc.mapping (Value.dictText [(Text.quoted key, Text.quoted text)])
    [(Text.quoted key ++ ": ", .text text)]).pretty

theorem page_entry (s : Store) (unmarked : s.table? 0 = none) (key text : String) :
    page (.dict 0 [(.str key, .str text)]) s = .ok (entryPage key text) s := by
  have view : s.view (.dict 0 [(.str key, .str text)]) = .dict 0 [(.str key, .str text)] := by
    obtain ⟨hops, more⟩ : ∃ hops, s.contents.length + s.namespaces.length + s.tables.length +
        Store.codeHops = hops + 1 := ⟨_, rfl⟩
    unfold Store.view
    rw [more]
    simp only [Value.withContents, lies, Store.contentsNow, unmarked]
    rfl
  unfold page
  rw [view]
  rfl

/-- A value is echoed as its page, on a line of its own after an empty one. -/
theorem echo_of_page {s : Store} {key text : String} {x : Value}
    (paged : page (.dict 0 [(.str key, x)]) (s.printed "\n") = .ok text (s.printed "\n")) :
    echo (.str key) x s = .ok x (s.printed ("\n" ++ (text ++ "\n"))) := by
  have whole : echo (.str key) x s =
      (page (.dict 0 [(.str key, x)]) >>= fun t => do print (t ++ "\n"); return x) (s.printed "\n") := rfl
  rw [whole, bind_of_ok paged]
  change EStateM.Result.ok _ { s with out := s.out ++ "\n" ++ (text ++ "\n") } = _
  rw [String.append_assoc]
  rfl

theorem echo_eq (s : Store) (unmarked : s.table? 0 = none) (key text : String) :
    echo (.str key) (.str text) s =
      .ok (.str text) (s.printed ("\n" ++ (entryPage key text ++ "\n"))) :=
  echo_of_page (page_entry (s.printed "\n") unmarked key text)

theorem checkLabel_eq (s : Store) (b : Book) (given : Option String) :
    checkLabel (.str b.name) b.results (labelGiven given) s =
      .ok (.str (b.label given (s.items b.list []).length)) s := by
  have numbered : (do
      let name ← shownPlain (.str b.name)
      let n ← Run.length b.results
      return Value.str s!"{name}[{n}]" : Run Value) s =
        .ok (.str s!"{b.name}[{(s.items b.list []).length}]") s := by
    rw [bind_of_ok (shownPlain_text s b.name)]
    rfl
  unfold checkLabel
  cases given with
  | none => exact numbered
  | some text =>
      by_cases empty : text = ""
      · subst empty
        exact numbered
      · have present : Run.truth (.str text) s = .ok true s := by
          have : (Value.str text).truth = .ok true := by simp [Value.truth, empty]
          change Run.ofExcept (Value.str text).truth s = _
          rw [this]
          rfl
        simp only [labelGiven, Option.map_some, Option.getD_some]
        rw [bind_of_ok present]
        simp only [Book.label, empty, if_false]
        rfl

theorem record_eq (k : Machine) (s : Store) (list : Nat) (label : String) (passed : Bool) :
    record k (.list list []) (.str label) passed s = .ok () (s.recorded list ⟨label, passed⟩) := rfl

namespace Book

variable (b : Book)

theorem label_ne_empty (given : Option String) (n : Nat) : b.label given n ≠ "" := by
  have numbered : s!"{b.name}[{n}]" ≠ "" := by
    intro empty
    have := congrArg String.length empty
    simp at this
  unfold label
  split
  · split
    · exact numbered
    · assumption
  · exact numbered

/-- What a traced run prints of a failed check. -/
def traced (text : String) (s : Store) : Store :=
  if b.trace then s.printed ("\n" ++ (entryPage "AssertionFailure" text ++ "\n")) else s

/-- How a check ends. Where the values differ, what the failure says is written before anything is
recorded. -/
def judged (s : Store) (a e : Value) (given : Option String) : EStateM.Result Stop Store Value :=
  let label := b.label given (s.items b.list []).length
  match s.equals a e with
  | .error f => .error (.fault f) s
  | .ok true => .ok a (s.recorded b.list ⟨label, true⟩)
  | .ok false =>
      match s.failureText a e label with
      | .error f => .error (.fault f) (s.skip 1)
      | .ok text =>
          let t := b.traced text ((s.skip 1).recorded b.list ⟨label, false⟩)
          if b.strict then .error (.fault (.mismatch a e (.str label) text)) t else .ok a t

theorem failed_mismatch (k : Machine) (s : Store) (unmarked : s.table? 0 = none) (a e : Value)
    (label text : String) :
    failed k (.bool b.strict) (.bool b.trace) b.results (.str label) (.mismatch a e (.str label) text) s =
      let t := b.traced text (s.recorded b.list ⟨label, false⟩)
      if b.strict then .error (.fault (.mismatch a e (.str label) text)) t else .ok none t := by
  have stops (s : Store) : Run.truth (.bool b.strict) s = .ok b.strict s := by
    cases b.strict <;> rfl
  have recorded := record_eq k s b.list label false
  have echoed := echo_eq (s.recorded b.list ⟨label, false⟩) unmarked "AssertionFailure" text
  have ending (t : Store) : (do
      if ← Run.truth (.bool b.strict) then Run.fault (.mismatch a e (.str label) text)
      else return none : Run (Option Value)) t =
      if b.strict then .error (.fault (.mismatch a e (.str label) text)) t else .ok none t := by
    rw [bind_of_ok (stops t)]
    split <;> rfl
  unfold failed results traced
  dsimp only
  rw [bind_of_ok recorded]
  cases b.trace with
  | false => exact ending _
  | true =>
      change (Functor.discard (echo _ _) >>= fun _ => _) _ = _
      rw [bind_of_ok (discard_of_ok echoed)]
      exact ending _

theorem failed_other (k : Machine) (strict trace results label : Value) {f : Fault}
    (other : f.isMismatch = false) : failed k strict trace results label f = Run.fault f := by
  cases f with
  | mismatch => cases other
  | _ => rfl

end Book

theorem equals_noMismatch (s : Store) (a e : Value) : NoMismatch (s.equals a e) := by
  unfold Store.equals
  split
  · exact (Grid.ofValue_noMismatch _).bind fun x => (Grid.ofValue_noMismatch _).bind fun y =>
      Grid.equal_noMismatch Value.equal_noMismatch x y
  · exact Value.equal_noMismatch _ _

theorem failureText_noMismatch (s : Store) (a e : Value) (label : String) :
    NoMismatch (s.failureText a e label) :=
  (Value.shown_noMismatch _).1.bind fun _ => (Value.shown_noMismatch _).1.bind fun _ => .pure _

/-- A check ends as its values decide. -/
theorem checkEq_eq (k : Machine) (b : Book) (s : Store) (unmarked : s.table? 0 = none) (a e : Value)
    (given : Option String) :
    checkEq k b.run a e (labelGiven given) s = b.judged s a e given := by
  have labelled := checkLabel_eq s b given
  have worded := b.label_ne_empty given (s.items b.list []).length
  unfold checkEq Book.run Book.judged
  dsimp only
  rw [bind_of_ok labelled]
  generalize b.label given (s.items b.list []).length = label at worded
  have compared := isEqual_eq s a e
  -- A fault that is not that of a failed check goes through the handler.
  have raised {f : Fault} {t : Store} (other : f.isMismatch = false)
      (run : assertEq a e (.str label) s = .error (.fault f) t) :
      recover (some <$> assertEq a e (.str label))
        (failed k (.bool b.strict) (.bool b.trace) b.results (.str label)) s = .error (.fault f) t := by
    rw [recover_of_fault (map_of_error some run), Book.failed_other k _ _ _ _ other]
    rfl
  cases verdict : s.equals a e with
  | error f =>
      rw [verdict] at compared
      have run : assertEq a e (.str label) s = .error (.fault f) s := bind_of_error compared
      exact bind_of_error (raised (equals_noMismatch s a e f verdict) run)
  | ok equal =>
      rw [verdict] at compared
      cases equal with
      | true =>
          have run : assertEq a e (.str label) s = .ok a s := bind_of_ok compared
          rw [bind_of_ok (recover_of_ok (map_of_ok some run))]
          exact bind_of_ok (record_eq k s b.list label true)
      | false =>
          have worded := mismatch_eq s a e worded
          have run : assertEq a e (.str label) s =
              (mismatch a e (.str label) >>= Run.fault) s := bind_of_ok compared
          cases wording : s.failureText a e label with
          | error f =>
              rw [wording] at worded
              rw [bind_of_error worded] at run
              exact bind_of_error (raised (failureText_noMismatch s a e label f wording) run)
          | ok text =>
              rw [wording] at worded
              rw [bind_of_ok worded] at run
              have handled := recover_of_fault (h := failed k (.bool b.strict) (.bool b.trace) b.results
                (.str label)) (map_of_error some run)
              rw [b.failed_mismatch k (s.skip 1) unmarked] at handled
              cases strict : b.strict with
              | true =>
                  rw [strict] at handled
                  exact bind_of_error handled
              | false =>
                  rw [strict] at handled
                  exact bind_of_ok handled

end Knot
