import Knot.Proofs.Calls.Beside
import Knot.Proofs.Tracing.Checks
import Knot.Proofs.Tracing.Evaluation

/-!
Tracing changes what is printed and nothing else. Whatever a check run is asked for, one step after another,
it does the same with a trace and without; and a traced evaluation is the untraced one behind a page that
shows the expression, if that page can be written.
-/

namespace Knot

open Run Renaming

namespace Book

variable (k : Machine) (b : Book)

/-- What a run answers to one step after another, each made however those before it ended. -/
def outcomes : List Step → Store → List (Except Stop Value)
  | [], _ => []
  | step :: rest, s => Ended.outcome (step.run k b s) :: outcomes rest ((step.run k b).after s)

/-- The store that the steps leave. -/
def driven (steps : List Step) (s : Store) : Store := steps.foldl (fun s step => (step.run k b).after s) s

/-- How a run goes with a trace and without: the outcomes are the same, and so are the stores in the end but
for what was printed, which is nothing without a trace. What is made on the way has other marks. -/
structure TracesChecks (entries : List Entry) (steps : List Step) (s : Store) (r : Renaming) : Prop where
  fixes : r.Fixes s
  outcomes : outcomes k (b.tracing true) steps s = (outcomes k (b.tracing false) steps s).map r.outcome
  silent : (driven k (b.tracing false) steps s).out = s.out
  stores : Image r (driven k (b.tracing false) steps s)
    { driven k (b.tracing true) steps s with out := s.out }
  records : ∃ more, b.Records (driven k (b.tracing false) steps s) (entries ++ more) ∧
    b.Records (driven k (b.tracing true) steps s) (entries ++ more)

end Book

open Book

variable {k : Machine} {b : Book} {s s₀ t : Store} {entries : List Entry}

/-- A step that is about what was made before ends alike with a trace and without. -/
theorem Book.Step.alike (rooted : s₀.IsRooted) (unmarked : s₀.table? 0 = none) (known : b.list < s₀.nextMark)
    {step : Step} (settled : step.IsSettled s₀) (few : IsShort entries.length) {r : Renaming}
    (alongside : Alongside s₀ b.list r s t) (numbers : r.Numbers s t) (records : b.Records s entries)
    (records' : b.Records t entries) :
    EndsAlike b s₀ s r entries (step.run k (b.tracing false) s) (step.run k (b.tracing true) t) := by
  cases step with
  | check c => exact check_alike alongside numbers records records' known unmarked settled
  | summary => exact summary_alike alongside numbers records records'
  | leave ended => exact leave_alike alongside numbers records records' rooted known unmarked few settled

theorem Book.EndsAlike.after {r : Renaming} {x y : Run Value} (ends : EndsAlike b s₀ s r entries (x s) (y t)) :
    Alongside s₀ b.list r (x.after s) (y.after t) ∧ b.AddsAlike entries s (x.after s) (y.after t) ∧
      ∀ r', r.Extends r' s₀ (x.after s) → Ended.outcome (y t) = r'.outcome (Ended.outcome (x s)) := by
  generalize first : x s = quiet at ends
  generalize second : y t = loud at ends
  cases ends with
  | value same alongside adds =>
      rw [after_of_ok first, after_of_ok second]
      exact ⟨alongside, adds, fun r' more => congrArg Except.ok (same r' more)⟩
  | fault same alongside adds =>
      rw [after_of_error first, after_of_error second]
      exact ⟨alongside, adds, fun r' more => congrArg (fun f => Except.error (Stop.fault f)) (same r' more)⟩

/-- The induction is on the steps. That the stores are alongside carries it; the marks are numbered anew
before each step, since the traced run may have made more in the one before. -/
theorem Book.steps_alike (rooted : s₀.IsRooted) (unmarked : s₀.table? 0 = none) (known : b.list < s₀.nextMark)
    (steps : List Step) (settled : ∀ step ∈ steps, step.IsSettled s₀)
    (few : IsShort (entries.length + steps.length)) {r : Renaming}
    (alongside : Alongside s₀ b.list r s t) (records : b.Records s entries) (records' : b.Records t entries) :
    ∃ r', r.Extends r' s₀ s ∧
      outcomes k (b.tracing true) steps t = (outcomes k (b.tracing false) steps s).map r'.outcome ∧
      Alongside s₀ b.list r' (driven k (b.tracing false) steps s) (driven k (b.tracing true) steps t) ∧
      ∃ more, b.Records (driven k (b.tracing false) steps s) (entries ++ more) ∧
        b.Records (driven k (b.tracing true) steps t) (entries ++ more) := by
  induction steps generalizing s t entries r with
  | nil =>
      refine ⟨r, ⟨alongside.fixes, fun _ _ => rfl⟩, rfl, alongside, [], ?_, ?_⟩
      · rwa [List.append_nil]
      · rwa [List.append_nil]
  | cons step rest ih =>
      obtain ⟨r₁, renumbered, numbers, first⟩ := alongside.renumber rooted
      have ends : EndsAlike b s₀ s r₁ entries (step.run k (b.tracing false) s) (step.run k (b.tracing true) t) :=
        Step.alike rooted unmarked known (settled step (List.mem_cons_self ..))
          (few.of_le (Nat.le_add_right _ _)) renumbered numbers
          records records'
      obtain ⟨later, ⟨marks, new, single, adds, adds'⟩, outcome⟩ := ends.after
      have shorter : (entries ++ new).length + rest.length ≤ entries.length + (step :: rest).length := by
        rw [List.length_append, List.length_cons, Nat.add_assoc, Nat.add_comm rest.length]
        exact Nat.add_le_add_left (Nat.add_le_add_right single _) _
      obtain ⟨r₂, second, outcomes, done, more, recorded, recorded'⟩ :=
        ih (fun step member => settled step (List.mem_cons_of_mem _ member)) (few.of_le shorter) later adds adds'
      refine ⟨r₂, ⟨second.fixes, fun m below => ?_⟩, ?_, done, new ++ more, ?_, ?_⟩
      · exact (second.marks m (below.trans_le marks)).trans (first.marks m below)
      · exact List.cons_eq_cons.mpr ⟨outcome r₂ second, outcomes⟩
      · rw [← List.append_assoc]
        exact recorded
      · rw [← List.append_assoc]
        exact recorded'

theorem Book.traces_checks (rooted : s.IsRooted) (unmarked : s.table? 0 = none) (known : b.list < s.nextMark)
    (records : b.Records s entries) (steps : List Step) (settled : ∀ step ∈ steps, step.IsSettled s)
    (few : IsShort (entries.length + steps.length)) : ∃ r, b.TracesChecks k entries steps s r := by
  obtain ⟨r, -, outcomes, alongside, recorded⟩ :=
    steps_alike (k := k) rooted unmarked known steps settled few (.refl rooted b.list) records records
  have silent := alongside.silent
  have stores := alongside.own_image
  rw [silent] at stores
  exact ⟨r, alongside.fixes, outcomes, silent, stores, recorded⟩

namespace Book

/-- A failed check, a summary and two ways to leave. -/
def mixedSteps : List Step :=
  [.check ⟨.int 1, .int 2, some "sum"⟩, .summary, .leave (.ok (.int 3)), .leave (.error (.value .integerTooLong))]

theorem mixedSteps_settled (s : Store) : ∀ step ∈ mixedSteps, step.IsSettled s := by
  intro step member
  simp only [mixedSteps, List.mem_cons, List.not_mem_nil, or_false] at member
  rcases member with rfl | rfl | rfl | rfl
  · exact ⟨fun _ _ => rfl, fun _ _ => rfl⟩
  · trivial
  · exact fun _ _ => rfl
  · exact fun _ _ => rfl

end Book

/-- The outermost environment can be written. -/
theorem outermost_writable : outermost.Writable := .intro trivial fun u member => by
  obtain rfl := List.mem_singleton.mp member
  exact .intro trivial nofun

end Knot
