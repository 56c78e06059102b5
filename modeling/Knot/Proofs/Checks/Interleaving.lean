import Knot.Proofs.Checks.Reports
import Mathlib.Data.List.Nodup

/-!
Checks of several runs, one after another. Each one changes the run that it is made in and no other,
and a strict run driven through checks goes on as a lenient one up to the first check that fails.
-/

namespace Knot

open Run

/-- Two values to be compared, under a label if there is one. -/
structure Check where
  actual : Value
  expected : Value
  label : Option String

namespace Check

/-- What the check is called with. -/
def args (c : Check) : List Value := [c.actual, c.expected] ++ (c.label.map .str).toList

end Check

namespace Book

/-- A run is called for a check. -/
def check (k : Machine) (b : Book) (c : Check) : Run Value :=
  k.callValue (.method 0 b.run .assertEq) c.args []

theorem check_eq (k : Machine) (b : Book) (c : Check) (s : Store) (unmarked : s.table? 0 = none) :
    b.check k c s = b.judged s c.actual c.expected c.label := by
  rw [← checkEq_eq k b s unmarked]
  obtain ⟨a, e, given⟩ := c
  cases given <;> rfl

end Book

namespace Store

/-- A store that is another one but for what some lists hold, the marks given out and the text
printed. -/
structure Aside (lists : List Nat) (s t : Store) : Prop where
  rest : t = { s with contents := t.contents, nextMark := t.nextMark, out := t.out }
  contents : ∀ mark, mark ∉ lists → t.contents.lookup mark = s.contents.lookup mark

variable {s t u : Store} {lists more : List Nat}

theorem Aside.refl (lists : List Nat) (s : Store) : Aside lists s s := ⟨rfl, fun _ _ => rfl⟩

theorem Aside.trans (first : Aside lists s t) (second : Aside lists t u) : Aside lists s u where
  rest := by
    have here := second.rest
    rw [first.rest] at here
    exact here
  contents mark outside := (second.contents mark outside).trans (first.contents mark outside)

theorem Aside.mono (aside : Aside lists s t) (among : lists ⊆ more) : Aside more s t :=
  ⟨aside.rest, fun mark outside => aside.contents mark fun member => outside (among member)⟩

theorem Aside.table? (aside : Aside lists s t) (mark : Nat) : t.table? mark = s.table? mark := by
  rw [aside.rest]
  rfl

theorem Aside.items (aside : Aside lists s t) {mark : Nat} (outside : mark ∉ lists)
    (items : List Value) : t.items mark items = s.items mark items := by
  simp only [Store.items, aside.contents mark outside]

theorem skip_aside (s : Store) (n : Nat) : Aside [] s (s.skip n) := ⟨rfl, fun _ _ => rfl⟩

theorem printed_aside (s : Store) (text : String) : Aside [] s (s.printed text) := ⟨rfl, fun _ _ => rfl⟩

theorem recorded_aside (s : Store) (list : Nat) (e : Entry) : Aside [list] s (s.recorded list e) where
  rest := rfl
  contents mark outside := Bindings.lookup_assign_of_ne _ _ (by simpa using outside)

theorem recorded_items (s : Store) (list : Nat) (e : Entry) :
    (s.recorded list e).items list [] = s.items list [] ++ [e.written s.nextMark] := by
  simp only [Store.items, recorded, Bindings.lookup_assign_self, Option.getD_some]

end Store
namespace Book

variable {b : Book} {s t : Store}

theorem Records.of_aside {entries : List Entry} {lists : List Nat} (records : b.Records s entries)
    (aside : Store.Aside lists s t) (outside : b.list ∉ lists) : b.Records t entries := by
  unfold Records
  rw [aside.items outside]
  exact records

theorem Records.add {entries : List Entry} (records : b.Records s entries) (e : Entry) :
    b.Records (s.recorded b.list e) (entries ++ [e]) := by
  unfold Records
  rw [Store.recorded_items]
  exact List.rel_append records (.cons ⟨_, rfl⟩ .nil)

theorem traced_aside (b : Book) (text : String) (s : Store) : Store.Aside [] s (b.traced text s) := by
  unfold traced
  split
  · exact s.printed_aside _
  · exact .refl [] s

/-- A check adds an entry to what its run holds, and to nothing else. -/
structure Adds (b : Book) (label : Option String) (passed : Bool) (s t : Store) : Prop where
  own : ∀ entries, b.Records s entries → b.Records t (entries ++ [⟨b.label label entries.length, passed⟩])
  others : Store.Aside [b.list] s t

theorem recorded_adds (b : Book) (label : Option String) (passed : Bool) (s : Store) :
    b.Adds label passed s (s.recorded b.list ⟨b.label label (s.items b.list []).length, passed⟩) where
  own entries records := by
    rw [records.length]
    exact records.add _
  others := s.recorded_aside b.list _

/-- The ways in which a check ends. -/
inductive Ends (b : Book) (c : Check) (s : Store) : EStateM.Result Stop Store Value → Prop
  | passed {t : Store} : isEqual c.actual c.expected s = .ok true s → b.Adds c.label true s t →
      Ends b c s (.ok c.actual t)
  | failed {t : Store} : isEqual c.actual c.expected s = .ok false s → b.strict = false →
      b.Adds c.label false s t → Ends b c s (.ok c.actual t)
  | stopped {t : Store} {label text : String} : isEqual c.actual c.expected s = .ok false s →
      b.strict = true → b.Adds c.label false s t →
      Ends b c s (.error (.fault (.mismatch c.actual c.expected (.str label) text)) t)
  | undecided {t : Store} {f : Fault} :
      isEqual c.actual c.expected s = .error (.fault f) s ∨
        isEqual c.actual c.expected s = .ok false s ∧
          (∃ label, mismatch c.actual c.expected (.str label) s = .error (.fault f) t) →
      f.kind ≠ "AssertionFailure" → Store.Aside [] s t → Ends b c s (.error (.fault f) t)

theorem kind_of_isMismatch {f : Fault} (other : f.isMismatch = false) :
    f.kind ≠ "AssertionFailure" := by
  cases f with
  | mismatch => cases other
  | _ => simp [Fault.kind]

theorem judged_ends (b : Book) (c : Check) (s : Store) :
    b.Ends c s (b.judged s c.actual c.expected c.label) := by
  have compared := isEqual_eq s c.actual c.expected
  have worded := mismatch_eq s c.actual c.expected
    (b.label_ne_empty c.label (s.items b.list []).length)
  unfold judged
  cases verdict : s.equals c.actual c.expected with
  | error f =>
      rw [verdict] at compared
      exact .undecided (.inl compared)
        (kind_of_isMismatch (equals_noMismatch _ _ _ f verdict)) (.refl [] s)
  | ok equal =>
      rw [verdict] at compared
      cases equal with
      | true => exact .passed compared (b.recorded_adds c.label true s)
      | false =>
          dsimp only
          cases wording : s.failureText c.actual c.expected
              (b.label c.label (s.items b.list []).length) with
          | error f =>
              rw [wording] at worded
              exact .undecided (.inr ⟨compared, _, worded⟩)
                (kind_of_isMismatch (failureText_noMismatch _ _ _ _ f wording)) (s.skip_aside 1)
          | ok text =>
              have adds : b.Adds c.label false s (b.traced text ((s.skip 1).recorded b.list
                  ⟨b.label c.label (s.items b.list []).length, false⟩)) := by
                have added := b.recorded_adds c.label false (s.skip 1)
                have traces := b.traced_aside text ((s.skip 1).recorded b.list
                  ⟨b.label c.label (s.items b.list []).length, false⟩)
                refine ⟨fun entries records => ?_, ?_⟩
                · exact (added.own entries records).of_aside traces (by simp)
                · exact (((s.skip_aside 1).mono (by simp)).trans added.others).trans
                    (traces.mono (by simp))
              dsimp only
              split
              · next strict => exact .stopped compared strict adds
              · next lenient => exact .failed compared (by simpa using lenient) adds

theorem Ends.after {c : Check} {x : Run Value} (ends : b.Ends c s (x s)) :
    Store.Aside [b.list] s (x.after s) ∧
      ∀ entries, b.Records s entries → ∃ new, b.Records (x.after s) (entries ++ new) := by
  generalize run : x s = result at ends
  cases ends with
  | passed _ adds | failed _ _ adds =>
      rw [after_of_ok run]
      exact ⟨adds.others, fun entries records => ⟨_, adds.own entries records⟩⟩
  | stopped _ _ adds =>
      rw [after_of_error run]
      exact ⟨adds.others, fun entries records => ⟨_, adds.own entries records⟩⟩
  | undecided _ _ aside =>
      rw [after_of_error run]
      refine ⟨aside.mono (by simp), fun entries records => ⟨[], ?_⟩⟩
      rw [List.append_nil]
      exact records.of_aside aside (by simp)

/-- Every check ends in one of the ways, whatever its values are. -/
theorem check_ends (k : Machine) (b : Book) (c : Check) {s : Store} (unmarked : s.table? 0 = none) :
    b.Ends c s (b.check k c s) := by
  rw [b.check_eq k c s unmarked]
  exact b.judged_ends c s

end Book

/-! Interleavings. -/

/-- The store after checks of some runs in turn, each made however those before it ended. -/
def interleaved (k : Machine) (checks : List (Book × Check)) (s : Store) : Store :=
  checks.foldl (fun s (b, c) => (b.check k c).after s) s

theorem interleaved_aside (k : Machine) {lists : List Nat} (checks : List (Book × Check))
    (among : ∀ check ∈ checks, check.1.list ∈ lists) (s : Store) (unmarked : s.table? 0 = none) :
    Store.Aside lists s (interleaved k checks s) := by
  induction checks generalizing s with
  | nil => exact .refl lists s
  | cons check rest ih =>
      obtain ⟨b, c⟩ := check
      have step : Store.Aside lists s ((b.check k c).after s) :=
        (b.check_ends k c unmarked).after.1.mono (by simpa using among (b, c) (by simp))
      refine step.trans (ih (fun check member => among check (by simp [member])) _ ?_)
      rw [step.table?, unmarked]

theorem interleaved_records (k : Machine) {b : Book} (checks : List (Book × Check))
    (apart : ∀ check ∈ checks, check.1 = b ∨ check.1.list ≠ b.list) (s : Store)
    (unmarked : s.table? 0 = none) {entries : List Entry} (records : b.Records s entries) :
    ∃ new, b.Records (interleaved k checks s) (entries ++ new) := by
  induction checks generalizing s entries with
  | nil => exact ⟨[], by rwa [List.append_nil]⟩
  | cons check rest ih =>
      obtain ⟨other, c⟩ := check
      have ends := (other.check_ends k c unmarked).after
      have unmarked' : ((other.check k c).after s).table? 0 = none := by
        rw [ends.1.table?, unmarked]
      obtain ⟨first, records'⟩ : ∃ new, b.Records ((other.check k c).after s) (entries ++ new) := by
        rcases apart (other, c) (by simp) with rfl | ne
        · exact ends.2 entries records
        · refine ⟨[], ?_⟩
          rw [List.append_nil]
          exact records.of_aside ends.1 (by simpa using ne.symm)
      obtain ⟨new, done⟩ := ih (fun check member => apart check (by simp [member])) _ unmarked' records'
      exact ⟨first ++ new, by rwa [← List.append_assoc]⟩

/-! Strict and lenient runs. -/

namespace Book

/-- A run is driven through checks in turn, up to the first that raises. -/
def drive (k : Machine) (b : Book) (checks : List Check) : Run Unit :=
  checks.forM fun c => discard (b.check k c)

end Book

/-- A value that shows nothing of what some lists hold. -/
def Store.Hides (s : Store) (lists : List Nat) (v : Value) : Prop :=
  ∀ t, Store.Aside lists s t → t.now v = s.now v ∧ t.view v = s.view v

/-- A check whose values show nothing of what some lists hold. -/
def Check.Apart (c : Check) (s : Store) (lists : List Nat) : Prop :=
  s.Hides lists c.actual ∧ s.Hides lists c.expected

section

variable {s t : Store} {lists : List Nat} {c : Check}

theorem Store.Aside.frame (aside : Store.Aside lists s t) : t.frame = s.frame := by
  rw [aside.rest]
  rfl

theorem equals_aside (apart : c.Apart s lists) (aside : Store.Aside lists s t) :
    t.equals c.actual c.expected = s.equals c.actual c.expected := by
  simp only [Store.equals, (apart.1 t aside).1, (apart.2 t aside).1]

theorem failureText_aside (apart : c.Apart s lists) (aside : Store.Aside lists s t) (label : String) :
    t.failureText c.actual c.expected label = s.failureText c.actual c.expected label := by
  simp only [Store.failureText, (apart.1 t aside).2, (apart.2 t aside).2, aside.frame]

end

theorem after_bind_ok {α β : Type} {x : Run α} {f : α → Run β} {a : α} {s t : Store}
    (run : x s = .ok a t) : (x >>= f).after s = (f a).after t := by
  simp only [after, bind_of_ok run]

namespace Book

variable {b : Book} {s t : Store} (k : Machine)

theorem drive_cons_ok {c : Check} {rest : List Check} {v : Value} (run : b.check k c s = .ok v t) :
    (b.drive k (c :: rest)).after s = (b.drive k rest).after t :=
  after_bind_ok (discard_of_ok run)

theorem drive_cons_error {c : Check} {rest : List Check} {e : Stop} (run : b.check k c s = .error e t) :
    (b.drive k (c :: rest)).after s = t := by
  have stopped : (b.drive k (c :: rest)) s = .error e t := bind_of_error (map_of_error _ run)
  exact after_of_error stopped

theorem drive_records (checks : List Check) (unmarked : s.table? 0 = none) {entries : List Entry}
    (records : b.Records s entries) : ∃ new, b.Records ((b.drive k checks).after s) (entries ++ new) := by
  induction checks generalizing s entries with
  | nil => exact ⟨[], by rwa [List.append_nil]⟩
  | cons c rest ih =>
      have ends := (b.check_ends k c unmarked).after
      obtain ⟨first, records'⟩ := ends.2 entries records
      cases run : b.check k c s with
      | error e t =>
          rw [after_of_error run] at records'
          exact ⟨first, by rwa [drive_cons_error k run]⟩
      | ok v t =>
          rw [after_of_ok run] at records' ends
          obtain ⟨new, done⟩ := ih (by rw [ends.1.table?, unmarked]) records'
          exact ⟨first ++ new, by rwa [drive_cons_ok k run, ← List.append_assoc]⟩

end Book

/-- The entries up to the first that failed. -/
def Entry.upToFailure (entries : List Entry) : List Entry :=
  entries.take (entries.findIdx (!·.passed) + 1)

theorem Entry.upToFailure_passed (label : String) (entries : List Entry) :
    upToFailure (⟨label, true⟩ :: entries) = ⟨label, true⟩ :: upToFailure entries := by
  simp [upToFailure, List.findIdx_cons]

/-- A strict run and a lenient one go alike up to the first failed check, where the strict one stops.
The induction is on the checks; that both runs hold the same entries so far carries it. -/
theorem strict_drive_stops (k : Machine) {strict lenient : Book} (stops : strict.strict = true)
    (goes : lenient.strict = false) (name : strict.name = lenient.name) {s s₁ s₂ : Store}
    (unmarked : s.table? 0 = none) (checks : List Check)
    (apart : ∀ c ∈ checks, c.Apart s [strict.list, lenient.list]) (aside₁ : Store.Aside [strict.list, lenient.list] s s₁)
    (aside₂ : Store.Aside [strict.list, lenient.list] s s₂) {entries : List Entry} 
    (records₁ : strict.Records s₁ entries) (records₂ : lenient.Records s₂ entries) :
    ∃ new, lenient.Records ((lenient.drive k checks).after s₂) (entries ++ new) ∧
      strict.Records ((strict.drive k checks).after s₁) (entries ++ Entry.upToFailure new) := by
  induction checks generalizing s₁ s₂ entries with
  | nil =>
      refine ⟨[], ?_, ?_⟩
      · rwa [List.append_nil]
      · rwa [Entry.upToFailure, List.take_nil, List.append_nil]
  | cons c rest ih =>
      have here := apart c (by simp)
      have rest_apart : ∀ c ∈ rest, c.Apart s [strict.list, lenient.list] :=
        fun c member => apart c (by simp [member])
      have run₁ := strict.check_eq k c s₁ (by rw [aside₁.table?, unmarked])
      have run₂ := lenient.check_eq k c s₂ (by rw [aside₂.table?, unmarked])
      have label : strict.label c.label (s₁.items strict.list []).length =
          lenient.label c.label (s₂.items lenient.list []).length := by
        rw [records₁.length, records₂.length]
        simp only [Book.label, name]
      unfold Book.judged at run₁ run₂
      simp only [equals_aside here aside₁, failureText_aside here aside₁, label] at run₁
      simp only [equals_aside here aside₂, failureText_aside here aside₂] at run₂
      generalize lenient.label c.label (s₂.items lenient.list []).length = label at run₁ run₂
      have nothing : lenient.Records s₂ (entries ++ []) ∧
          strict.Records s₁ (entries ++ Entry.upToFailure []) := by
        rw [Entry.upToFailure, List.take_nil, List.append_nil]
        exact ⟨records₂, records₁⟩
      cases verdict : s.equals c.actual c.expected with
      | error f =>
          rw [verdict] at run₁ run₂
          refine ⟨[], ?_⟩
          rw [Book.drive_cons_error k run₁, Book.drive_cons_error k run₂]
          exact nothing
      | ok equal =>
          rw [verdict] at run₁ run₂
          cases equal with
          | true =>
              have added₁ := s₁.recorded_aside strict.list ⟨label, true⟩
              have added₂ := s₂.recorded_aside lenient.list ⟨label, true⟩
              obtain ⟨new, more, upTo⟩ := ih rest_apart (aside₁.trans (added₁.mono (by simp)))
                (aside₂.trans (added₂.mono (by simp))) (records₁.add ⟨label, true⟩)
                (records₂.add ⟨label, true⟩)
              refine ⟨⟨label, true⟩ :: new, ?_, ?_⟩
              · rw [Book.drive_cons_ok k run₂, List.append_cons]
                exact more
              · rw [Book.drive_cons_ok k run₁, Entry.upToFailure_passed, List.append_cons]
                exact upTo
          | false =>
              cases wording : s.failureText c.actual c.expected label with
              | error f =>
                  rw [wording] at run₁ run₂
                  refine ⟨[], ?_⟩
                  rw [Book.drive_cons_error k run₁, Book.drive_cons_error k run₂]
                  exact ⟨nothing.1.of_aside (s₂.skip_aside 1) (by simp),
                    nothing.2.of_aside (s₁.skip_aside 1) (by simp)⟩
              | ok text =>
                  rw [wording] at run₁ run₂
                  simp only [stops, goes, if_true, Bool.false_eq_true, if_false] at run₁ run₂
                  have failed₁ := ((records₁.of_aside (s₁.skip_aside 1) (by simp)).add ⟨label, false⟩)
                  have failed₂ := ((records₂.of_aside (s₂.skip_aside 1) (by simp)).add ⟨label, false⟩)
                  have traced₁ := failed₁.of_aside (strict.traced_aside text _) (by simp)
                  have traced₂ := failed₂.of_aside (lenient.traced_aside text _) (by simp)
                  have unmarked₂ := ((lenient.traced_aside text
                    ((s₂.skip 1).recorded lenient.list ⟨label, false⟩)).table? 0).trans
                      ((aside₂.table? 0).trans unmarked)
                  obtain ⟨new, more⟩ := lenient.drive_records k rest unmarked₂ traced₂
                  refine ⟨⟨label, false⟩ :: new, ?_, ?_⟩
                  · rw [Book.drive_cons_ok k run₂, List.append_cons]
                    exact more
                  · rw [Book.drive_cons_error k run₁]
                    exact traced₁

/-- A run that is made without a list of results has a list of its own, which holds nothing. -/
theorem checkRun_made (s : Store) (positive : s.nextMark ≠ 0)
    (new : s.contents.lookup s.nextMark = none) (name : String) (strict trace : Bool) :
    ∃ b : Book, b.name = name ∧ b.strict = strict ∧ b.trace = trace ∧ b.list = s.nextMark ∧
      Kind.checkRun.call [.str name, .bool strict, .bool trace] [] s = .ok b.run (s.skip 2) ∧
      b.Records (s.skip 2) [] := by
  refine ⟨⟨s.nextMark + 1, name, strict, trace, s.nextMark, positive⟩, rfl, rfl, rfl, rfl, rfl, ?_⟩
  have nothing : (s.skip 2).items s.nextMark [] = [] := by
    simp only [Store.items, Store.skip, new, Option.getD_none]
  rw [Book.Records, nothing]
  exact .nil

/-- Checks of any runs, in any order: every moment each run holds entries and reports them, each check
adds at most one entry and only to its own run, and a strict run holds what a lenient one of its name
holds up to the first entry that failed. -/
theorem check_runs_keep_books (k : Machine) {s : Store} (unmarked : s.table? 0 = none)
    {books : List Book} (distinct : (books.map Book.list).Nodup) (empty : ∀ b ∈ books, b.Records s []) :
    (∀ checks : List (Book × Check), (∀ check ∈ checks, check.1 ∈ books) →
      let t := interleaved k checks s
      (∀ b ∈ books, ∃ entries, b.Records t entries ∧ b.Reports k t entries) ∧
      (∀ b ∈ books, ∀ c, b.Ends c t (b.check k c t)) ∧
      ∀ b ∈ books, ∀ c, ∀ other ∈ books, other ≠ b → ∀ entries, other.Records t entries →
        other.Records ((b.check k c).after t) entries) ∧
    ∀ strict ∈ books, ∀ lenient ∈ books, strict.strict = true → lenient.strict = false →
      strict.name = lenient.name → ∀ checks : List Check,
      (∀ c ∈ checks, c.Apart s [strict.list, lenient.list]) →
      ∀ s₁ s₂, Store.Aside [strict.list, lenient.list] s s₁ → Store.Aside [strict.list, lenient.list] s s₂ →
      strict.Records s₁ [] → lenient.Records s₂ [] →
      ∃ entries, lenient.Records ((lenient.drive k checks).after s₂) entries ∧
        strict.Records ((strict.drive k checks).after s₁) (Entry.upToFailure entries) := by
  have apart {b other : Book} (here : b ∈ books) (there : other ∈ books) (ne : other ≠ b) :
      other.list ≠ b.list := fun same => ne (List.inj_on_of_nodup_map distinct there here same)
  refine ⟨fun checks among => ?_, fun strict _ lenient _ stops goes name checks hidden s₁ s₂ aside₁
    aside₂ records₁ records₂ => ?_⟩
  · have aside : Store.Aside (books.map Book.list) s (interleaved k checks s) :=
      interleaved_aside k checks (fun check member => List.mem_map_of_mem (among check member)) s unmarked
    have unmarked' : (interleaved k checks s).table? 0 = none := by rw [aside.table?, unmarked]
    refine ⟨fun b here => ?_, fun b here c => b.check_ends k c unmarked', ?_⟩
    · obtain ⟨entries, records⟩ := interleaved_records k checks (fun check member => by
        by_cases same : check.1 = b
        · exact .inl same
        · exact .inr (apart here (among check member) same)) s unmarked (empty b here)
      exact ⟨_, records, Book.reports k records⟩
    · intro b here c other there ne entries records
      exact records.of_aside (b.check_ends k c unmarked').after.1
        (by simpa using apart here there ne)
  · exact strict_drive_stops k stops goes name unmarked checks hidden aside₁ aside₂ records₁ records₂

/-- A number shows nothing of any list. -/
theorem Store.hides_int (s : Store) (lists : List Nat) (i : Int) : s.Hides lists (.int i) := by
  intro t _
  have read (u : Store) : u.now (.int i) = .int i := u.now_of_atom fun _ => rfl
  have shown (u : Store) : u.view (.int i) = .int i := rfl
  exact ⟨by rw [read, read], by rw [shown, shown]⟩

namespace Book

def strictBook : Book :=
  { mark := 17, name := "checks", strict := true, trace := false, list := 16, made := by decide }

def lenientBook : Book :=
  { mark := 19, name := "checks", strict := false, trace := false, list := 18, made := by decide }

/-- A session with a strict and a lenient run. -/
def bookStore : Store := { Session.start with nextMark := 20 }

/-- Checks of which the second fails. -/
def sumChecks : List Check := [⟨.int 1, .int 1, none⟩, ⟨.int 1, .int 2, some "b"⟩, ⟨.int 3, .int 3, none⟩]

end Book

open Book in
theorem check_runs_keep_books_of_two :
    bookStore.table? 0 = none ∧ ([strictBook, lenientBook].map Book.list).Nodup ∧
    (∀ b ∈ [strictBook, lenientBook], b.Records bookStore []) ∧
    ∃ entries, lenientBook.Records ((lenientBook.drive .spent sumChecks).after bookStore) entries ∧
      strictBook.Records ((strictBook.drive .spent sumChecks).after bookStore) (Entry.upToFailure entries) := by
  have empty : ∀ b ∈ [strictBook, lenientBook], b.Records bookStore [] := by
    intro b member
    have nothing (mark : Nat) : bookStore.items mark [] = [] := rfl
    rw [Records, nothing]
    exact .nil
  have apart : ∀ c ∈ sumChecks, c.Apart bookStore [strictBook.list, lenientBook.list] := by
    intro c member
    simp only [sumChecks, List.mem_cons, List.not_mem_nil, or_false] at member
    rcases member with rfl | rfl | rfl <;> exact ⟨bookStore.hides_int _ _, bookStore.hides_int _ _⟩
  refine ⟨rfl, by decide, empty, ?_⟩
  exact (check_runs_keep_books .spent rfl (by decide) empty).2 strictBook (by simp) lenientBook (by simp)
    rfl rfl rfl sumChecks apart bookStore bookStore (.refl _ _) (.refl _ _)
    (empty _ (by simp)) (empty _ (by simp))

/-! Checks that are lost, and checks that see what was recorded before. -/

namespace Book

/-- The least number whose text is too long to be written. -/
def unwritten : Value := .int (Nat.pow 10 Text.digitLimit : Nat)

/-- What the strict run holds after one check. -/
def readExpected : Value := .list 14 [Entry.written 15 ⟨"checks[0]", true⟩]

/-- Checks of which the second reads what the strict run has recorded. -/
def readingChecks : List Check :=
  [⟨.int 1, .int 1, none⟩,
    ⟨strictBook.results, readExpected, none⟩]

theorem power_pos (digits : Nat) : 0 < Nat.pow 10 digits := Nat.pow_pos (by decide)

theorem integerText_of_short {i : Int} (short : i.natAbs < Nat.pow 10 Text.digitLimit) :
    integerText i = .ok (toString i) := if_pos short

theorem integerText_of_long {i : Int} (long : Nat.pow 10 Text.digitLimit ≤ i.natAbs) :
    integerText i = .error (.value .integerTooLong) := if_neg (Nat.not_lt_of_le long)

theorem showWith_int (frames : Nat → Frame) (i : Int) : (Value.int i).showWith frames = integerText i := by
  rw [Value.showWith.eq_def]

theorem showWith_written (frames : Nat → Frame) (mark : Nat) (e : Entry) :
    ∃ text, (e.written mark).showWith frames = .ok text := by
  have label : (Value.str e.label).showWith frames = .ok (Text.quoted e.label) := by
    rw [Value.showWith.eq_def]
  have passed : (Value.bool e.passed).showWith frames =
      .ok (if e.passed then "True" else "False") := by
    rw [Value.showWith.eq_def]
  have both : Value.showAll frames [.str e.label, .bool e.passed] =
      .ok [Text.quoted e.label, if e.passed then "True" else "False"] := by
    rw [Value.showAll, Value.showAll, Value.showAll, label, passed]
    rfl
  rw [Entry.written, Value.showWith.eq_def]
  dsimp only
  rw [both]
  exact ⟨_, rfl⟩

theorem showAll_written (frames : Nat → Frame) {vs : List Value} {entries : List Entry}
    (written : Listed vs entries) :
    ∃ texts, Value.showAll frames vs = .ok texts := by
  induction written with
  | nil => exact ⟨[], by rw [Value.showAll]⟩
  | cons here _ ih =>
      obtain ⟨mark, rfl⟩ := here
      obtain ⟨text, shown⟩ := showWith_written frames mark _
      obtain ⟨texts, rest⟩ := ih
      exact ⟨text :: texts, by rw [Value.showAll, shown, rest]; rfl⟩

theorem showWith_entries (frames : Nat → Frame) (mark : Nat) {vs : List Value} {entries : List Entry}
    (written : Listed vs entries) :
    ∃ text, (Value.list mark vs).showWith frames = .ok text := by
  obtain ⟨texts, shown⟩ := showAll_written frames written
  rw [Value.showWith.eq_def]
  dsimp only
  rw [shown]
  exact ⟨_, rfl⟩

section

variable {n : Nat} (long : Nat.pow 10 Text.digitLimit ≤ n)
include long

theorem unwritten_differs : bookStore.equals (.int n) (.int 0) = .ok false := by
  have differs : ((n : Int) == 0) = false := by
    rw [beq_eq_false_iff_ne]
    exact Int.natCast_ne_zero.mpr ((power_pos Text.digitLimit).trans_le long).ne'
  exact congrArg Except.ok differs

theorem unwritten_text (label : String) :
    bookStore.failureText (.int n) (.int 0) label = .error (.value .integerTooLong) := by
  have unwritten := integerText_of_long (i := n) long
  have short : integerText 0 = .ok (toString (0 : Int)) := integerText_of_short (power_pos _)
  have viewed (i : Int) : bookStore.view (.int i) = .int i := rfl
  unfold Store.failureText
  rw [viewed, viewed, showWith_int, showWith_int, short, unwritten]
  exact rfl

theorem unwritten_lost : lenientBook.check .spent ⟨.int n, .int 0, none⟩ bookStore =
    .error (.fault (.value .integerTooLong)) (bookStore.skip 1) := by
  rw [Book.check_eq _ _ _ _ rfl, Book.judged]
  simp only [unwritten_differs long, unwritten_text long]

end

/-- The strict run, read by the second check, holds more when the lenient run comes to it. -/
theorem reading_apart :
    ∃ strict lenient, strictBook.Records ((strictBook.drive .spent readingChecks).after bookStore) strict ∧
      lenientBook.Records ((lenientBook.drive .spent readingChecks).after
        ((strictBook.drive .spent readingChecks).after bookStore)) lenient ∧ ¬ strict <+: lenient := by
  have driven : (strictBook.drive .spent readingChecks).after bookStore =
      (bookStore.recorded 16 ⟨"checks[0]", true⟩).recorded 16 ⟨"checks[1]", true⟩ := by
    have first : strictBook.check .spent ⟨.int 1, .int 1, none⟩ bookStore =
        .ok (.int 1) (bookStore.recorded 16 ⟨"checks[0]", true⟩) := by
      rw [Book.check_eq _ _ _ _ rfl]
      rfl
    have second : strictBook.check .spent ⟨strictBook.results, readExpected, none⟩ (bookStore.recorded 16 ⟨"checks[0]", true⟩) =
        .ok strictBook.results
          ((bookStore.recorded 16 ⟨"checks[0]", true⟩).recorded 16 ⟨"checks[1]", true⟩) := by
      rw [Book.check_eq _ _ _ _ rfl]
      rfl
    rw [readingChecks, Book.drive_cons_ok _ first, Book.drive_cons_ok _ second]
    rfl
  generalize left : (bookStore.recorded 16 ⟨"checks[0]", true⟩).recorded 16 ⟨"checks[1]", true⟩ = t
  have first : lenientBook.check .spent ⟨.int 1, .int 1, none⟩ t =
      .ok (.int 1) (t.recorded 18 ⟨"checks[0]", true⟩) := by
    rw [Book.check_eq _ _ _ _ (by rw [← left]; rfl), ← left]
    rfl
  have differs : (t.recorded 18 ⟨"checks[0]", true⟩).equals strictBook.results readExpected =
      .ok false := by
    rw [← left]
    rfl
  obtain ⟨text, worded⟩ : ∃ text, (t.recorded 18 ⟨"checks[0]", true⟩).failureText strictBook.results
      readExpected "checks[1]" = .ok text := by
    obtain ⟨wanted, shown⟩ := showWith_entries (t.recorded 18 ⟨"checks[0]", true⟩).frame 14
      (.cons ⟨15, rfl⟩ .nil : Listed [Entry.written 15 ⟨"checks[0]", true⟩] [⟨"checks[0]", true⟩])
    obtain ⟨given, shown'⟩ := showWith_entries (t.recorded 18 ⟨"checks[0]", true⟩).frame 16
      (.cons ⟨20, rfl⟩ (.cons ⟨21, rfl⟩ .nil) : Listed [Entry.written 20 ⟨"checks[0]", true⟩,
        Entry.written 21 ⟨"checks[1]", true⟩] [⟨"checks[0]", true⟩, ⟨"checks[1]", true⟩])
    have viewed : (t.recorded 18 ⟨"checks[0]", true⟩).view strictBook.results =
        .list 16 [Entry.written 20 ⟨"checks[0]", true⟩, Entry.written 21 ⟨"checks[1]", true⟩] := by
      rw [← left]
      rfl
    have viewed' : (t.recorded 18 ⟨"checks[0]", true⟩).view readExpected =
        .list 14 [Entry.written 15 ⟨"checks[0]", true⟩] := by
      rw [← left]
      rfl
    unfold Store.failureText
    rw [viewed, viewed', shown, shown']
    exact ⟨_, rfl⟩
  have second : lenientBook.check .spent ⟨strictBook.results, readExpected, none⟩
      (t.recorded 18 ⟨"checks[0]", true⟩) = .ok strictBook.results
        (((t.recorded 18 ⟨"checks[0]", true⟩).skip 1).recorded 18 ⟨"checks[1]", false⟩) := by
    have label : lenientBook.label none ((t.recorded 18 ⟨"checks[0]", true⟩).items
        lenientBook.list []).length = "checks[1]" := by
      rw [← left]
      rfl
    rw [Book.check_eq _ _ _ _ (by rw [← left]; rfl), Book.judged]
    simp only [differs, label, worded]
    rfl
  have more : (lenientBook.drive .spent readingChecks).after t =
      ((t.recorded 18 ⟨"checks[0]", true⟩).skip 1).recorded 18 ⟨"checks[1]", false⟩ := by
    rw [readingChecks, Book.drive_cons_ok _ first, Book.drive_cons_ok _ second]
    rfl
  rw [driven, left, more, ← left]
  exact ⟨[⟨"checks[0]", true⟩, ⟨"checks[1]", true⟩], [⟨"checks[0]", true⟩, ⟨"checks[1]", false⟩],
    .cons ⟨20, rfl⟩ (.cons ⟨21, rfl⟩ .nil), .cons ⟨22, rfl⟩ (.cons ⟨24, rfl⟩ .nil), by decide⟩

/-- A check is lost where what its failure says cannot be written; and checks that read what a strict
run holds do not go alike in a lenient one. -/
theorem unwritten_unbooked :
    isEqual unwritten (.int 0) bookStore = .ok false bookStore ∧
    (∃ t, lenientBook.check .spent ⟨unwritten, .int 0, none⟩ bookStore =
      .error (.fault (.value .integerTooLong)) t ∧ t.items lenientBook.list [] = []) ∧
    ∃ strict lenient, strictBook.Records ((strictBook.drive .spent readingChecks).after bookStore) strict ∧
      lenientBook.Records ((lenientBook.drive .spent readingChecks).after
        ((strictBook.drive .spent readingChecks).after bookStore)) lenient ∧ ¬ strict <+: lenient := by
  obtain ⟨n, same⟩ : ∃ n, Nat.pow 10 Text.digitLimit = n := ⟨_, rfl⟩
  rw [unwritten, same]
  refine ⟨?_, ⟨bookStore.skip 1, unwritten_lost same.le, rfl⟩, reading_apart⟩
  rw [isEqual_eq, unwritten_differs same.le]
  rfl

end Book

end Knot
