import Knot.Proofs.Checks.Interleaving
import Knot.Proofs.Demo.Recursion

/-!
The checks of the demonstration. Each result is what the plain recursion computes, so every check passes,
and the run ends with the summary of five passed checks, which it prints if it is traced.
-/

namespace Knot

open Run Store

/-- The text of a number of few digits. -/
theorem integerText_of_small {i : Int} (small : i.natAbs < 10000000000) : integerText i = .ok (toString i) := by
  have wide : 10 ≤ Text.digitLimit := by decide
  refine Book.integerText_of_short ?_
  generalize Text.digitLimit = digits at wide ⊢
  have enough : Nat.pow 10 10 ≤ Nat.pow 10 digits := Nat.pow_le_pow_right (by decide) wide
  exact small.trans_le enough

/-! The summary of five passed checks. -/

namespace Demo

def summaryText : String := "\x7b'failed': 0, 'failures': [], 'passed': 5, 'run': 'demo'\x7d"

/-- What the demonstration's checks say of themselves, under their key. -/
def summaryEntry (mark list : Nat) : Value :=
  .dict 0 [(.str "CheckRun", .dict mark [(.str "run", .str "demo"), (.str "passed", .int 5),
    (.str "failed", .int 0), (.str "failures", .list list [])])]

/-- The same as it is laid out: the keys in order, all on one line. -/
def summaryDoc : Doc :=
  .mapping ("\x7b'CheckRun': " ++ summaryText ++ "\x7d")
    [("'CheckRun': ", .mapping summaryText
      [("'failed': ", .atom "0"), ("'failures': ", .list "[]" []), ("'passed': ", .atom "5"),
        ("'run': ", .text "demo")])]

theorem doc_summary (frames : Nat → Frame) (mark list : Nat) :
    (summaryEntry mark list).docWith frames = .ok summaryDoc := by
  have passed : (Value.int 5).showWith frames = .ok "5" :=
    (Book.showWith_int frames 5).trans (integerText_of_small (by decide))
  have failed : (Value.int 0).showWith frames = .ok "0" :=
    (Book.showWith_int frames 0).trans (integerText_of_small (by decide))
  simp only [summaryEntry, Value.docWith, Value.docEntries, Value.docAll, passed, failed]
  with_unfolding_all rfl

theorem pretty_summary : summaryDoc.pretty = "\x7b'CheckRun': " ++ summaryText ++ "\x7d" :=
  Doc.format_of_fits summaryDoc 0 0 (by decide +kernel)

theorem page_summary {s : Store} {mark list : Nat} (unmarked : s.table? 0 = none)
    (table : s.table? mark = none) (items : s.contents.lookup list = none) (apart : list ≠ mark) :
    page (summaryEntry mark list) s = .ok ("\x7b'CheckRun': " ++ summaryText ++ "\x7d") s := by
  have first : lies [] 0 = false := rfl
  have second : lies [0] mark = false := by
    simp [lies]
  have third : lies [mark, 0] list = false := by
    simp [lies, apart]
  have view : s.view (summaryEntry mark list) = summaryEntry mark list := by
    obtain ⟨hops, more⟩ : ∃ hops, s.contents.length + s.namespaces.length + s.tables.length +
        Store.codeHops = hops + 1 := ⟨_, rfl⟩
    unfold Store.view summaryEntry
    rw [more]
    simp only [Value.withContents, Value.withContentsEntries, Value.withContentsAll, first, second, third,
      Store.contentsNow, unmarked, table, items]
    rfl
  unfold page
  rw [view, doc_summary]
  exact congrArg (EStateM.Result.ok · s) pretty_summary

/-! One check after another. -/

theorem ensuring_of_ok {α : Type} {x : Run α} {last : Run Unit} {a : α} {s t u : Store} (block : x s = .ok a t)
    (closed : last t = .ok () u) : ensuring x last s = .ok a u := by
  unfold ensuring
  rw [bind_of_ok (recover_of_ok block)]
  exact bind_of_ok closed

/-- The run of the demonstration's checks. -/
def book (trace : Bool) (list : Nat) (made : list ≠ 0) : Book where
  mark := list + 1
  name := "demo"
  strict := true
  trace := trace
  list := list
  made := made

/-- A store that is quiet after another one, in which a run made since holds some entries. -/
structure Checking (s₀ : Store) (b : Book) (entries : List Entry) (t : Store) : Prop where
  quiet : Quiet s₀ t
  made : s₀.nextMark ≤ b.list
  known : b.list < t.nextMark
  records : b.Records t entries

section

variable {s₀ t u : Store} {b : Book} {entries : List Entry} (checking : Checking s₀ b entries t)
include checking

theorem Checking.later (quiet : Quiet t u) : Checking s₀ b entries u where
  quiet := checking.quiet.trans quiet
  made := checking.made
  known := checking.known.trans_le quiet.marks
  records := by
    have same : u.items b.list [] = t.items b.list [] := by
      rw [Store.items, quiet.contents _ checking.known]
      rfl
    rw [Book.Records, same]
    exact checking.records

theorem Checking.recorded (e : Entry) : Checking s₀ b (entries ++ [e]) (t.recorded b.list e) where
  quiet :=
    let quiet := checking.quiet
    { quiet with
      rest := congrArg (fun u : Store => { u with
        nextMark := t.nextMark + 1
        contents := t.contents.assign b.list (t.items b.list [] ++ [e.written t.nextMark]) }) quiet.rest
      marks := quiet.marks.trans (Nat.le_succ _)
      contents := fun mark known =>
        (Bindings.lookup_assign_of_ne _ _ (known.trans_le checking.made).ne).trans (quiet.contents mark known)
      fresh := fun new =>
        let new := (Quiet.told t 1 t.journal t.deeds).fresh (quiet.fresh new)
        { new with
          contents := fun mark above =>
            (Bindings.lookup_assign_of_ne _ _
              (checking.known.trans_le ((Nat.le_succ _).trans above)).ne').trans (new.contents mark above) } }
  made := checking.made
  known := checking.known.trans (Nat.lt_succ_self _)
  records := by
    have items : (t.recorded b.list e).items b.list [] = t.items b.list [] ++ [e.written t.nextMark] := by
      rw [Store.items]
      exact congrArg (Option.getD · []) (Bindings.lookup_assign_self _ _ _)
    rw [Book.Records, items]
    exact List.rel_append checking.records (.cons ⟨_, rfl⟩ .nil)

/-- A check of the number that is expected passes. -/
theorem check_passes (k : Machine) (unmarked : s₀.table? 0 = none) {results : Results} {label : String} {v : Int}
    {expected : Run Value} (worded : label ≠ "") (found : results.lookup label = some (.int v))
    (expects : Yields expected t (.int v)) :
    ∃ u, Demo.check k b.run results label expected t = .ok () u ∧
      Checking s₀ b (entries ++ [⟨label, true⟩]) u := by
  obtain ⟨e, u, run, quiet, rfl⟩ := expects
  have later := checking.later quiet
  refine ⟨_, ?_, later.recorded ⟨label, true⟩⟩
  have equal : u.equals (.int v) (.int v) = .ok true := by
    have same : (v == v) = true := beq_self_eq_true v
    exact congrArg Except.ok same
  have judged : checkEq k b.run (.int v) (.int v) (.str label) u = .ok (.int v) (u.recorded b.list ⟨label, true⟩) := by
    have named : b.label (some label) (u.items b.list []).length = label := if_neg worded
    have decided := checkEq_eq k b u (table?_later later.quiet unmarked) (.int v) (.int v) (some label)
    rw [Book.judged, equal, named] at decided
    exact decided
  unfold Demo.check
  rw [bind_of_ok run, found]
  exact discard_of_ok judged

end

/-- Checks of one number under several labels. -/
theorem checks_pass (k : Machine) {s₀ : Store} {b : Book} (unmarked : s₀.table? 0 = none) {results : Results}
    {v : Int} {expected : Run Value} (expects : ∀ t, Quiet s₀ t → Yields expected t (.int v))
    (labels : List String) (worded : "" ∉ labels)
    (found : ∀ label ∈ labels, results.lookup label = some (.int v)) {t : Store} {entries : List Entry}
    (checking : Checking s₀ b entries t) :
    ∃ u, (forIn labels PUnit.unit fun label _ => do
        Demo.check k b.run results label expected
        return ForInStep.yield PUnit.unit) t = .ok () u ∧
      Checking s₀ b (entries ++ labels.map (⟨·, true⟩)) u := by
  induction labels generalizing t entries with
  | nil => exact ⟨t, rfl, by simpa using checking⟩
  | cons label rest ih =>
      obtain ⟨u, run, first⟩ := check_passes checking k unmarked (fun empty => worded (by simp [empty]))
        (found label (by simp)) (expects t checking.quiet)
      obtain ⟨w, runs, done⟩ := ih (fun member => worded (by simp [member]))
        (fun label member => found label (by simp [member])) first
      refine ⟨w, ?_, by simpa using done⟩
      rw [List.forIn_cons, bind_assoc, bind_of_ok run]
      exact runs

/-- What a traced run prints in the end. -/
def printed (trace : Bool) : String :=
  if trace then "\n" ++ ("\x7b'CheckRun': " ++ summaryText ++ "\x7d" ++ "\n") else ""

/-- Five passed checks are summed up. -/
theorem close_prints {s₀ t : Store} {b : Book} {labels : List String} (five : labels.length = 5)
    (checking : Checking s₀ b (labels.map (⟨·, true⟩)) t) (unmarked : s₀.table? 0 = none) (new : t.Fresh)
    (named : b.name = "demo") :
    ∃ u, closeRun (.str "demo") (.bool b.trace) b.results t = .ok () (u.printed (printed b.trace)) ∧ Quiet t u := by
  cases traced : b.trace with
  | false =>
      have same : t.printed (printed false) = t := by
        have same : t.out ++ "" = t.out := String.append_empty
        change { t with out := t.out ++ "" } = t
        rw [same]
      exact ⟨t, by rw [same]; rfl, .refl t⟩
  | true =>
      have quiet : Quiet t (t.skip 2) := Quiet.told t 2 t.journal t.deeds
      refine ⟨t.skip 2, ?_, quiet⟩
      have passed : (labels.map fun label => (⟨label, true⟩ : Entry)).countP (·.passed = true) = 5 := by
        have all : ∀ e ∈ labels.map fun label => (⟨label, true⟩ : Entry), decide (e.passed = true) = true := by
          simp
        rw [List.countP_eq_length.mpr all, List.length_map, five]
      have failed : (labels.map fun label => (⟨label, true⟩ : Entry)).filter (·.passed = false) = [] := by
        simp
      have none : (labels.map fun label => (⟨label, true⟩ : Entry)).countP (·.passed = false) = 0 := by
        rw [List.countP_eq_length_filter, failed, List.length_nil]
      have summed := Book.summary_eq checking.records
      rw [passed, failed, none, named] at summed
      have later := checking.quiet.trans quiet
      have paged : page (summaryEntry (t.nextMark + 1) t.nextMark) ((t.skip 2).printed "\n") = _ :=
        page_summary (table?_later later unmarked) (new.table? (Nat.le_succ _)) (new.contents _ (Nat.le_refl _))
          (Nat.lt_succ_self _).ne
      have echoed := echo_of_page paged
      unfold closeRun
      rw [bind_of_ok (show Run.truth (.bool true) t = .ok true t from rfl), if_pos rfl, bind_of_ok summed]
      exact discard_of_ok echoed

/-- The checks of the demonstration pass, and their run prints what it says of itself. -/
theorem checkAll_passes {s : Store} {k : Machine} {settings : Settings} {n : Nat} {results : Results} (new : s.Fresh)
    (unmarked : s.table? 0 = none) (natural : settings.demoN = n) (short : (n : Int) < Word.shortEnd)
    (affords : Affords (max 21 (n + 1)) k s)
    (factorials : ∀ label ∈ factorialLabels (toString (n : Int)), results.lookup label = some (.int n.factorial))
    (fibonacci : results.lookup fibonacciLabel = some (.int (Nat.fib 20))) :
    ∃ u, checkAll k settings results s = .ok () (u.printed (printed settings.trace)) ∧ Quiet s u := by
  let b := book settings.trace s.nextMark new.positive.ne'
  let t : Store := { s with nextMark := s.nextMark + 2 }
  have begun : Checking s b [] t := by
    refine ⟨Quiet.told s 2 s.journal s.deeds, Nat.le_refl _, Nat.lt_add_of_pos_right (by decide), ?_⟩
    have nothing : t.items b.list [] = [] := by
      rw [Store.items]
      exact congrArg (Option.getD · []) (new.contents _ (Nat.le_refl _))
    rw [Book.Records, nothing]
    exact .nil
  have written : integerText settings.demoN = .ok (toString (n : Int)) := by
    rw [natural]
    refine integerText_of_small ?_
    unfold Word.shortEnd at short
    omega
  have worded : "" ∉ factorialLabels (toString (n : Int)) := by
    intro member
    simp [factorialLabels, toString] at member
  have computes (u : Store) (quiet : Quiet s u) : Yields (call k .factorial [.int settings.demoN]) u (.int n.factorial) := by
    rw [natural]
    exact factorial_computes n k u ((affords.later quiet).less (by dsimp only; omega))
  obtain ⟨u, checked, four⟩ := checks_pass k unmarked computes _ worded factorials begun
  have last : Yields (call k .fibonacci [.int 20]) u (.int (Nat.fib 20)) :=
    fibonacci_computes 20 k u ((affords.later four.quiet).less (by dsimp only; omega))
  obtain ⟨w, checked', five⟩ := check_passes four k unmarked (by decide) fibonacci last
  have all : (factorialLabels (toString (n : Int)) ++ [fibonacciLabel]).length = 5 := rfl
  obtain ⟨x, closed, quiet⟩ := close_prints all (by simpa using five) unmarked (five.quiet.fresh new) rfl
  refine ⟨x, ?_, five.quiet.trans quiet⟩
  have block : (do
      for label in factorialLabels (← Run.ofExcept (integerText settings.demoN)) do
        check k b.run results label (call k .factorial [.int settings.demoN])
      check k b.run results fibonacciLabel (call k .fibonacci [.int 20])) t = .ok () w := by
    rw [written, bind_of_ok (show Run.ofExcept (.ok (toString (n : Int))) t = .ok (toString (n : Int)) t from rfl)]
    exact (bind_of_ok checked).trans checked'
  have entries : Run.list [] s = .ok (.list s.nextMark []) { s with nextMark := s.nextMark + 1 } := rfl
  have marked : fresh { s with nextMark := s.nextMark + 1 } = .ok (s.nextMark + 1) t := rfl
  unfold checkAll
  rw [bind_of_ok entries, bind_of_ok marked]
  exact ensuring_of_ok block closed

end Demo

end Knot
