import Knot.Proofs.Checks.Books

/-!
What a check run says of itself: how many checks passed and failed, whether any failed, and the labels
of those that did.
-/

namespace Knot

open Run

namespace Book

variable {b : Book} {s : Store}

/-- The labels of the entries that failed, in order. -/
def failures (entries : List Entry) : List String :=
  (entries.filter fun e => !e.passed).map (·.label)

/-- The label of an entry where it passed, or where it failed. -/
def labelOf? (passed : Bool) (e : Entry) : Option Value :=
  if e.passed = passed then some (.str e.label) else none

theorem labels_eq {vs : List Value} {entries : List Entry}
    (records : Listed vs entries) (passed : Bool) :
    (vs.mapM fun entry => do
      let (label, ok) ← pairOf entry
      return if (← Run.truth ok) = passed then some label else none : Run (List (Option Value))) s =
      .ok (entries.map (labelOf? passed)) s := by
  induction records with
  | nil => rfl
  | cons written rest ih =>
      obtain ⟨mark, rfl⟩ := written
      rename_i e vs entries
      have head : (do
          let (label, ok) ← pairOf (e.written mark)
          return if (← Run.truth ok) = passed then some label else none : Run (Option Value)) s =
          .ok (labelOf? passed e) s := by
        obtain ⟨label, ok⟩ := e
        cases ok <;> rfl
      rw [List.mapM_cons, bind_of_ok head, bind_of_ok ih]
      rfl

theorem filterMap_labelOf? (passed : Bool) (entries : List Entry) :
    (entries.map (labelOf? passed)).filterMap id =
      (entries.filter (·.passed = passed)).map fun e => .str e.label := by
  induction entries with
  | nil => rfl
  | cons e rest ih =>
      rw [List.map_cons, List.filterMap_cons, ih]
      by_cases here : e.passed = passed <;> simp [labelOf?, here]

theorem labelsWhere_eq {entries : List Entry} (records : b.Records s entries) (passed : Bool) :
    labelsWhere passed b.results s =
      .ok ((entries.filter (·.passed = passed)).map fun e => .str e.label) s := by
  have members : Run.members b.results s = .ok (s.items b.list []) s := rfl
  unfold labelsWhere
  rw [bind_of_ok members, bind_of_ok (labels_eq records passed), ← filterMap_labelOf?]
  rfl

theorem count_eq {entries : List Entry} (records : b.Records s entries) (passed : Bool) :
    count passed b.results s = .ok (.int (entries.countP (·.passed = passed))) s := by
  unfold count
  rw [bind_of_ok (labelsWhere_eq records passed)]
  simp [List.countP_eq_length_filter]
  rfl

theorem attribute_missing (b : Book) (s : Store) {name : String}
    (reserved : name ∈ ["passed", "failed", "ok"]) : s.attribute? b.run name = none := by
  simp only [List.mem_cons, List.not_mem_nil, or_false] at reserved
  rcases reserved with rfl | rfl | rfl <;> rfl

/-- The computed attributes of a run are computed from what it holds. -/
theorem getAttribute_computed (b : Book) (s : Store) {name : String} {x : Run Value}
    (reserved : name ∈ ["passed", "failed", "ok"]) (computes : computed? b.results name = some x) :
    getAttribute b.run name s = x s := by
  have absent := b.attribute_missing s reserved
  have read : (get : Run Store) s = .ok s s := rfl
  have missed : missing b.run name = (computed? b.results name).getD (Run.fault (b.run.lacks name)) :=
    rfl
  unfold getAttribute
  rw [bind_of_ok read, absent]
  dsimp only
  rw [missed, computes, Option.getD_some]

/-- What a run with some entries says of itself. -/
structure Reports (b : Book) (k : Machine) (s : Store) (entries : List Entry) : Prop where
  passed : getAttribute b.run "passed" s = .ok (.int (entries.countP (·.passed))) s
  failed : getAttribute b.run "failed" s = .ok (.int (entries.countP (!·.passed))) s
  balanced : entries.countP (·.passed) + entries.countP (!·.passed) = entries.length
  length : Run.length b.results s = .ok entries.length s
  ok : ∃ t, getAttribute b.run "ok" s = .ok (.bool (failures entries).isEmpty) t
  summary : ∃ t mark mark', k.callValue (.method 0 b.run .summary) [] [] s =
    .ok (.dict mark [(.str "run", .str b.name), (.str "passed", .int (entries.countP (·.passed))),
      (.str "failed", .int (entries.countP (!·.passed))),
      (.str "failures", .list mark' ((failures entries).map .str))]) t

theorem getAttribute_results (b : Book) (s : Store) :
    getAttribute b.run "results" s = .ok b.results s := by
  obtain ⟨n, positive⟩ := Nat.exists_eq_succ_of_ne_zero b.made
  have kept : marked b.results s = .ok b.results s := by
    rw [results, positive]
    rfl
  exact kept

theorem isZero_eq (s : Store) (n : Nat) :
    binary .equal (.int n) (.int 0) s = .ok (.bool (n == 0)) (s.skip 1) := by
  have read (i : Int) : now (.int i) s = .ok (.int i) s := by
    have same : s.now (.int i) = .int i := s.now_of_atom fun _ => rfl
    change EStateM.Result.ok (s.now (.int i)) s = _
    rw [same]
  have decided : ((n : Int) == 0) = (n == 0) := by
    rw [Bool.eq_iff_iff]
    simp
  change (now (.int n) >>= fun a => now (.int 0) >>= fun b => _) s = _
  rw [bind_of_ok (read n), bind_of_ok (read 0)]
  exact congrArg (fun b => EStateM.Result.ok (Value.bool b) (s.skip 1)) decided

theorem summary_eq {entries : List Entry} (records : b.Records s entries) :
    Run.summary (.str b.name) b.results s =
      .ok (.dict (s.nextMark + 1) [(.str "run", .str b.name),
        (.str "passed", .int (entries.countP (·.passed = true))),
        (.str "failed", .int (entries.countP (·.passed = false))),
        (.str "failures", .list s.nextMark
          ((entries.filter (·.passed = false)).map fun e => .str e.label))]) (s.skip 2) := by
  unfold Run.summary
  rw [bind_of_ok (count_eq records true), bind_of_ok (count_eq records false)]
  rw [bind_of_ok (labelsWhere_eq records false)]
  rfl

/-- A run reports the entries that it holds. -/
theorem reports {entries : List Entry} (k : Machine) (records : b.Records s entries) :
    b.Reports k s entries := by
  have passed := count_eq records true
  have failed := count_eq records false
  have pass : (fun e : Entry => decide (e.passed = true)) = (·.passed) := by
    funext e
    simp
  have fail : (fun e : Entry => decide (e.passed = false)) = (!·.passed) := by
    funext e
    simp
  have summed := summary_eq records
  simp only [pass, fail] at passed failed summed
  refine ⟨?_, ?_, ?_, ?_, ?_, ?_⟩
  · rw [b.getAttribute_computed s (by simp) rfl, passed]
  · rw [b.getAttribute_computed s (by simp) rfl, failed]
  · rw [List.length_eq_countP_add_countP (·.passed)]
    simp
  · rw [← records.length]
    rfl
  · refine ⟨s.skip 1, ?_⟩
    have none_failed : (entries.countP (!·.passed) == 0) = (failures entries).isEmpty := by
      rw [failures, List.isEmpty_map, List.countP_eq_length_filter]
      cases entries.filter (!·.passed) <;> rfl
    rw [b.getAttribute_computed s (by simp) rfl, bind_of_ok failed, isZero_eq, none_failed]
  · refine ⟨s.skip 2, s.nextMark + 1, s.nextMark, ?_⟩
    have asked : k.callValue (.method 0 b.run .summary) [] [] s =
        (getAttribute b.run "name" >>= fun name => getAttribute b.run "results" >>= fun results =>
          Run.summary name results) s := rfl
    have named : getAttribute b.run "name" s = .ok (.str b.name) s := rfl
    rw [asked, bind_of_ok named, bind_of_ok (b.getAttribute_results s), summed]
    simp [failures]

end Book

end Knot
