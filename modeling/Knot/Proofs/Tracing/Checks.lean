import Knot.Proofs.Tracing.Steps

/-!
Traced check runs. Each step ends as it does without a trace: a check prints what failed after it was
recorded, and a run that is left prints its summary, which can be written since its counts are short.
-/

namespace Knot

open Run Renaming

namespace Book

variable {b : Book} {s s₀ t : Store} {r : Renaming} {entries : List Entry} {k : Machine}

/-- A step of a run gave out marks and added one entry at most, with a trace and without. -/
structure AddsAlike (b : Book) (entries : List Entry) (s₁ s t : Store) : Prop where
  later : s₁.nextMark ≤ s.nextMark
  records : ∃ more, more.length ≤ 1 ∧ b.Records s (entries ++ more) ∧ b.Records t (entries ++ more)

/-- How a step without a trace and the same one with a trace end: alike, and with stores that are alike
but for what was printed. -/
inductive EndsAlike (b : Book) (s₀ s₁ : Store) (r : Renaming) (entries : List Entry) :
    EStateM.Result Stop Store Value → EStateM.Result Stop Store Value → Prop
  | value {v v' : Value} {s t : Store} : (∀ r', r.Extends r' s₀ s → v' = v.rename r') →
      Alongside s₀ b.list r s t → b.AddsAlike entries s₁ s t → EndsAlike b s₀ s₁ r entries (.ok v s) (.ok v' t)
  | fault {f f' : Fault} {s t : Store} : (∀ r', r.Extends r' s₀ s → f' = f.rename r') →
      Alongside s₀ b.list r s t → b.AddsAlike entries s₁ s t →
      EndsAlike b s₀ s₁ r entries (.error (.fault f) s) (.error (.fault f') t)

theorem AddsAlike.nothing {s₁ : Store} (later : s₁.nextMark ≤ s.nextMark) (records : b.Records s entries)
    (records' : b.Records t entries) : b.AddsAlike entries s₁ s t := by
  refine ⟨later, [], Nat.zero_le _, ?_, ?_⟩
  · rwa [List.append_nil]
  · rwa [List.append_nil]

theorem AddsAlike.one (records : b.Records s entries) (records' : b.Records t entries) (e : Entry) :
    b.AddsAlike entries s (s.recorded b.list e) (t.recorded b.list e) :=
  ⟨Nat.le_succ _, [e], Nat.le_refl _, records.add e, records'.add e⟩

section

variable (alongside : Alongside s₀ b.list r s t) (numbers : r.Numbers s t) (records : b.Records s entries)
  (records' : b.Records t entries)
include alongside numbers records records'

theorem check_alike (known : b.list < s₀.nextMark) (unmarked : s₀.table? 0 = none) {c : Check}
    (settled : Step.IsSettled s₀ (.check c)) :
    EndsAlike b s₀ s r entries ((b.tracing false).check k c s) ((b.tracing true).check k c t) := by
  have values := alongside.equals settled.1 settled.2
  have texts := alongside.failureText settled.1 settled.2
  have first (r' : Renaming) (fixes : r'.Fixes s₀) := settled.1 r' fixes
  have second (r' : Renaming) (fixes : r'.Fixes s₀) := settled.2 r' fixes
  have labelled (trace : Bool) (u : Store) (holds : b.Records u entries) :
      (b.tracing trace).label c.label (u.items (b.tracing trace).list []).length =
        b.label c.label entries.length := by
    rw [← holds.length]
    rfl
  rw [check_eq _ _ _ _ ((alongside.quiet.table? 0).trans unmarked),
    check_eq _ _ _ _ ((alongside.loud.table? 0).trans unmarked), judged, judged, labelled false s records,
    labelled true t records', values]
  generalize b.label c.label entries.length = label
  cases verdict : s.equals c.actual c.expected with
  | error f =>
      have same := Fault.rename_of_other (equals_noMismatch s _ _ f verdict)
      exact .fault (fun r' _ => (same r').symm) alongside (.nothing (Nat.le_refl _) records records')
  | ok equal =>
      cases equal with
      | true =>
          exact .value (fun r' more => (first r' more.fixes).symm) (alongside.recorded known numbers _)
            (.one records records' _)
      | false =>
          dsimp only
          rw [texts]
          have skipped := alongside.skip numbers (Nat.le_refl 1)
          have quiet := records.of_aside (s.skip_aside 1) (by simp)
          have loud := records'.of_aside (t.skip_aside 1) (by simp)
          cases wording : s.failureText c.actual c.expected label with
          | error f =>
              have same := Fault.rename_of_other (failureText_noMismatch s _ _ _ f wording)
              exact .fault (fun r' _ => (same r').symm) skipped (.nothing (Nat.le_succ _) quiet loud)
          | ok text =>
              have numbers' : r.Numbers (s.skip 1) (t.skip 1) := fun i => by
                change r.mark (s.nextMark + 1 + i) = t.nextMark + 1 + i
                rw [Nat.add_assoc, numbers, Nat.add_assoc]
              have told := (skipped.recorded known numbers' ⟨label, false⟩).printed
                ("\n" ++ (entryPage "AssertionFailure" text ++ "\n"))
              have adds : b.AddsAlike entries s ((s.skip 1).recorded b.list ⟨label, false⟩)
                  (((t.skip 1).recorded b.list ⟨label, false⟩).printed
                    ("\n" ++ (entryPage "AssertionFailure" text ++ "\n"))) :=
                ⟨Nat.le_add_right _ 2, [⟨label, false⟩], Nat.le_refl _, quiet.add _,
                  (loud.add _).of_aside (Store.printed_aside _ _) (by simp)⟩
              change EndsAlike b s₀ s r entries
                (if b.strict then .error (.fault (.mismatch c.actual c.expected (.str label) text)) _
                  else .ok c.actual _)
                (if b.strict then .error (.fault (.mismatch c.actual c.expected (.str label) text)) _
                  else .ok c.actual _)
              split
              · refine .fault (fun r' more => ?_) told adds
                rw [Fault.rename, first r' more.fixes, second r' more.fixes, Value.rename]
              · exact .value (fun r' more => (first r' more.fixes).symm) told adds

theorem summary_alike :
    EndsAlike b s₀ s r entries (Step.run k (b.tracing false) .summary s) (Step.run k (b.tracing true) .summary t) := by
  have asked (trace : Bool) (u : Store) (holds : b.Records u entries) :
      Step.run k (b.tracing trace) .summary u = Run.summary (.str b.name) b.results u := by
    have named : getAttribute (b.tracing trace).run "name" u = .ok (.str b.name) u := rfl
    have listed := (b.tracing trace).getAttribute_results u
    have whole : Step.run k (b.tracing trace) .summary u =
        (getAttribute (b.tracing trace).run "name" >>= fun name =>
          getAttribute (b.tracing trace).run "results" >>= fun results => Run.summary name results) u := rfl
    rw [whole, bind_of_ok named, bind_of_ok listed]
    rfl
  rw [asked false s records, asked true t records', summary_eq records, summary_eq records']
  refine .value (fun r' more => ?_) (alongside.skip numbers (Nat.le_refl 2))
    (.nothing (Nat.le_add_right _ _) (records.of_aside (s.skip_aside 2) (by simp))
      (records'.of_aside (t.skip_aside 2) (by simp)))
  have first : r'.mark s.nextMark = t.nextMark :=
    (more.marks _ (Nat.lt_add_of_pos_right Nat.two_pos)).trans (numbers 0)
  have second : r'.mark (s.nextMark + 1) = t.nextMark + 1 :=
    (more.marks _ (Nat.add_lt_add_left Nat.one_lt_two _)).trans (numbers 1)
  simp only [Value.rename, Value.renameEntries, Value.renameAll_eq, List.map_map, Function.comp_def, first, second]

end

/-- The summary of a run, under a key. -/
def summaryPage (name : String) (mark list : Nat) (entries : List Entry) : Value :=
  .dict 0 [(.str "CheckRun", .dict mark [(.str "run", .str name),
    (.str "passed", .int (entries.countP (·.passed = true))),
    (.str "failed", .int (entries.countP (·.passed = false))),
    (.str "failures", .list list ((entries.filter (·.passed = false)).map fun e => .str e.label))])]

theorem summaryPage_view {list mark : Nat} (unmarked : s.table? 0 = none) (table : s.table? mark = none)
    (items : s.contents.lookup list = none) (apart : list ≠ mark) (name : String) (entries : List Entry) :
    s.view (summaryPage name mark list entries) = summaryPage name mark list entries := by
  have first : lies [] 0 = false := rfl
  have second : lies [0] mark = false := by
    simp [lies]
  have third : lies [mark, 0] list = false := by
    simp [lies, apart]
  obtain ⟨hops, more⟩ : ∃ hops, s.contents.length + s.namespaces.length + s.tables.length +
      Store.codeHops = hops + 1 := ⟨_, rfl⟩
  unfold Store.view summaryPage
  rw [more]
  simp only [Value.withContents, Value.withContentsEntries, Value.withContentsAll_eq, first, second, third,
    Store.contentsNow, unmarked, table, items, List.map_map, Function.comp_def]
  rfl

/-- The summary of few checks can be written. -/
theorem summaryPage_writable (name : String) (mark list : Nat)
    (few : IsShort entries.length) : (summaryPage name mark list entries).Writable := by
  have text (x : String) : (Value.str x).Writable := .intro trivial nofun
  have count (p : Entry → Bool) : (Value.int (entries.countP p)).Writable :=
    .intro (few.of_le List.countP_le_length) nofun
  have failures : (Value.list list ((entries.filter (·.passed = false)).map fun e => .str e.label)).Writable := by
    refine .intro trivial fun u member => ?_
    obtain ⟨e, -, rfl⟩ := List.mem_map.mp member
    exact text _
  have inner : (Value.dict mark [(.str "run", .str name), (.str "passed", .int (entries.countP (·.passed = true))),
      (.str "failed", .int (entries.countP (·.passed = false))),
      (.str "failures", .list list ((entries.filter (·.passed = false)).map fun e => .str e.label))]).Writable := by
    refine .intro trivial fun u member => ?_
    simp only [Value.children, List.map_cons, List.map_nil, List.cons_append, List.nil_append, List.mem_cons,
      List.not_mem_nil, or_false] at member
    rcases member with rfl | rfl | rfl | rfl | rfl | rfl | rfl | rfl
    all_goals first
      | exact text _
      | exact count _
      | exact failures
  refine .intro trivial fun u member => ?_
  simp only [summaryPage, Value.children, List.map_cons, List.map_nil, List.cons_append, List.nil_append,
    List.mem_cons, List.not_mem_nil, or_false] at member
  rcases member with rfl | rfl
  · exact text _
  · exact inner

/-- A traced run that is left prints its summary. -/
theorem closeRun_prints (records : b.Records t entries) (few : IsShort entries.length)
    (unmarked : t.table? 0 = none) (clear : ∀ mark, t.nextMark ≤ mark →
      t.contents.lookup mark = none ∧ t.table? mark = none) :
    ∃ text, closeRun (.str b.name) (.bool true) b.results t = .ok () ((t.skip 2).printed text) := by
  have same (mark : Nat) : ((t.skip 2).printed "\n").table? mark = t.table? mark := rfl
  have view : ((t.skip 2).printed "\n").view (summaryPage b.name (t.nextMark + 1) t.nextMark entries) =
      summaryPage b.name (t.nextMark + 1) t.nextMark entries := by
    apply summaryPage_view
    · rw [same, unmarked]
    · rw [same, (clear _ (Nat.le_succ _)).2]
    · exact (clear _ (Nat.le_refl _)).1
    · exact (Nat.lt_succ_self _).ne
  obtain ⟨d, paged⟩ : Succeeds ((summaryPage b.name (t.nextMark + 1) t.nextMark entries).docWith
      ((t.skip 2).printed "\n").frame) := (summaryPage_writable b.name _ _ few).paged
  have page : Run.page (summaryPage b.name (t.nextMark + 1) t.nextMark entries) ((t.skip 2).printed "\n") =
      .ok d.pretty ((t.skip 2).printed "\n") := by
    unfold Run.page
    rw [view, paged]
    rfl
  refine ⟨"\n" ++ (d.pretty ++ "\n"), ?_⟩
  unfold closeRun
  rw [bind_of_ok (show Run.truth (.bool true) t = .ok true t from rfl), if_pos rfl,
    bind_of_ok (summary_eq records)]
  exact discard_of_ok (echo_of_page page)

theorem leave_alike (alongside : Alongside s₀ b.list r s t) (numbers : r.Numbers s t)
    (records : b.Records s entries) (records' : b.Records t entries) (rooted : s₀.IsRooted)
    (known : b.list < s₀.nextMark) (unmarked : s₀.table? 0 = none)
    (few : IsShort entries.length) {ended : Except Fault Value}
    (settled : Step.IsSettled s₀ (.leave ended)) :
    EndsAlike b s₀ s r entries (Step.run k (b.tracing false) (.leave ended) s)
      (Step.run k (b.tracing true) (.leave ended) t) := by
  obtain ⟨text, closed⟩ := closeRun_prints records' few ((alongside.loud.table? 0).trans unmarked)
    fun mark new => alongside.clear rooted known (alongside.marks'.trans new)
  have later := (alongside.skip numbers (Nat.zero_le 2)).printed text
  have adds : b.AddsAlike entries s s ((t.skip 2).printed text) :=
    .nothing (Nat.le_refl _) records (records'.of_aside (((t.skip_aside 2).trans (Store.printed_aside _ _))) (by simp))
  have block (trace : Bool) (u : Store) : Step.run k (b.tracing trace) (.leave ended) u =
      ensuring (Run.ofExcept ended) (closeRun (.str b.name) (.bool trace) b.results) u := rfl
  rw [block, block]
  cases ended with
  | ok v =>
      have quiet : ensuring (Run.ofExcept (.ok v)) (closeRun (.str b.name) (.bool false) b.results) s = .ok v s := rfl
      have loud : ensuring (Run.ofExcept (.ok v)) (closeRun (.str b.name) (.bool true) b.results) t =
          .ok v ((t.skip 2).printed text) := bind_of_ok closed
      rw [quiet, loud]
      exact .value (fun r' more => (settled r' more.fixes).symm) later adds
  | error f =>
      have quiet : ensuring (Run.ofExcept (.error f) : Run Value) (closeRun (.str b.name) (.bool false) b.results) s =
          .error (.fault f) s := rfl
      have loud : ensuring (Run.ofExcept (.error f) : Run Value) (closeRun (.str b.name) (.bool true) b.results) t =
          .error (.fault f) ((t.skip 2).printed text) := bind_of_error (bind_of_ok closed)
      rw [quiet, loud]
      exact .fault (fun r' more => (settled r' more.fixes).symm) later adds

end Book

end Knot
