import Knot.Proofs.Calls.Arguments
import Knot.Proofs.Demo.Quiet
import Knot.Proofs.Journal.Lookup

/-!
What sessions reach, wherever the stack is when the next program runs and whatever room it has. All that a
reached store holds, it has given out itself.
-/

namespace Knot

open Run Renaming

/-- The stores of sessions with the values that programs have names for in them. A program may run with
any stack, so that what it does within calls and blocks of other ones is told too. -/
inductive Reached : Store → Scope → Prop
  | start : Reached Session.start []
  | within {s : Store} {scope : Scope} (stack : Stack) : Reached s scope → Reached { s with stack } scope
  | printed {s : Store} {scope : Scope} : Reached s scope → Reached { s with out := "" } scope
  | ended {s s' : Store} {scope : Scope} {fuel : Nat} {program : Term} {v : Value} (name : String) :
      Reached s scope → program.eval (.ofFuel fuel) scope s = .ok v s' → Reached s' ((name, v) :: scope)
  | stopped {s s' : Store} {scope : Scope} {fuel : Nat} {program : Term} {e : Stop} :
      Reached s scope → program.eval (.ofFuel fuel) scope s = .error e s' → Reached s' scope

/-- The store with nothing to bound how deep calls are nested. -/
def Store.unbounded (s : Store) : Store := { s with stack := { s.stack with room := none } }

/-- A store of marks and frames that it has given out itself. -/
def Store.IsRooted (s : Store) : Prop := Rooted s.unbounded

variable {s s' : Store} {scope : Scope} {r : Renaming}

/-- The stack is not part of what an image holds under other marks. -/
theorem Image.withStack (image : Image r s s) (stack : Stack) :
    Image r { s with stack } { s with stack } :=
  ⟨image.frames, image.tallies, image.contents, image.tables, image.given, image.namespaces, image.entered,
    image.session, rfl, image.out⟩

theorem Renaming.Fixes.of_unbounded (fixes : r.Fixes s.unbounded) : r.Fixes s :=
  ⟨fixes.marks, fixes.frames, fixes.scopes, fixes.alone⟩

namespace Store.IsRooted

variable (rooted : s.IsRooted)
include rooted

theorem image (fixes : r.Fixes s) : Image r s s :=
  (Rooted.image rooted r ⟨fixes.marks, fixes.frames, fixes.scopes, fixes.alone⟩).withStack s.stack

theorem positive : 0 < s.nextMark := Rooted.positive (s := s.unbounded) rooted

theorem opened : 0 < s.frames.size := Rooted.opened (s := s.unbounded) rooted

theorem namespaces_lt {mark id : Nat} (known : s.namespaces.lookup mark = some id) : id < s.frames.size :=
  Rooted.namespaces_lt rooted known

theorem frame_mark_lt (id : Nat) : (s.frame id).mark < s.nextMark := Rooted.frame_mark_lt rooted id

/-- No dictionary of a mark that was not given out stands for the names of a frame. -/
theorem namespaces_new {mark : Nat} (new : s.nextMark ≤ mark) : s.namespaces.lookup mark = none := by
  let r := Renaming.shift s.nextMark (mark - s.nextMark + 1) rooted.positive
  have fixes : r.Fixes s := ⟨fun _ below => if_pos below, fun _ _ => rfl, fun _ => rfl, rfl⟩
  rw [(rooted.image fixes).namespaces]
  refine lookup_skipped (fun m => ?_) _
  simp only [r, Renaming.shift]
  split <;> omega

end Store.IsRooted

theorem Store.IsRooted.of_image (image : ∀ r : Renaming, r.Fixes s → Image r s s) (positive : 0 < s.nextMark)
    (opened : 0 < s.frames.size) : s.IsRooted :=
  ⟨fun r fixes => (image r fixes.of_unbounded).withStack _, positive, opened, rfl⟩

/-- What a run makes of a rooted store and settled values is settled, and so is the store that it leaves. -/
theorem Run.Equi.after_rooted {α : Type} {x : Run α} {f : Renaming → α → α} (rooted : s.IsRooted)
    (equi : ∀ r : Renaming, r.Fixes s → Equi r (f r) x x) :
    (∀ a, x s = .ok a s' → s'.IsRooted ∧ ∀ r : Renaming, r.Fixes s' → f r a = a) ∧
      ∀ e, x s = .error e s' → s'.IsRooted := by
  have grows : Grows x := (equi .same (Renaming.same_fixes s)).grows
  refine ⟨fun a run => ?_, fun e run => ?_⟩
  · have later : Later s s' := after_of_ok run ▸ grows s
    have own (r : Renaming) (fixes : r.Fixes s') : Image r s' s' ∧ f r a = a := by
      have before := fixes.before later
      obtain ⟨s'', run', follows⟩ := (equi r before).ok (rooted.image before) run fixes.allots
      rw [run] at run'
      injection run' with values stores
      exact ⟨stores ▸ follows.image, values.symm⟩
    exact ⟨.of_image (fun r fixes => (own r fixes).1) (rooted.positive.trans_le later.marks)
      (rooted.opened.trans_le later.frames), fun r fixes => (own r fixes).2⟩
  · have later : Later s s' := after_of_error run ▸ grows s
    refine .of_image (fun r fixes => ?_) (rooted.positive.trans_le later.marks)
      (rooted.opened.trans_le later.frames)
    have before := fixes.before later
    obtain ⟨e', s'', run', bare, follows⟩ := (equi r before).error (rooted.image before) run fixes.allots
    rw [run] at run'
    cases run'
    exact follows.image

/-- Programs do the same, whatever number what they make gets. -/
theorem Term.program_equi (program : Term) (fuel : Nat) (settled : ∀ entry ∈ scope, Settled s entry.2)
    (r : Renaming) (fixes : r.Fixes s) :
    Equi r (Value.rename r) (program.eval (.ofFuel fuel) scope) (program.eval (.ofFuel fuel) scope) := by
  have same : r.named scope = scope := by
    refine (List.map_congr_left fun entry member => ?_).trans (List.map_id scope)
    exact Prod.ext rfl (settled entry member r fixes)
  have ran := Term.eval_equi (Machine.equivariant_ofFuel r fixes.scopes fuel) program scope
  rwa [same] at ran

namespace Reached

theorem rooted (reached : Reached s scope) : s.IsRooted ∧ ∀ entry ∈ scope, Settled s entry.2 := by
  induction reached with
  | start =>
      exact ⟨Rooted.unbounded, fun _ member => absurd member List.not_mem_nil⟩
  | within stack _ ih =>
      refine ⟨.of_image (fun r fixes => (ih.1.image ?_).withStack stack) ih.1.positive ih.1.opened,
        fun entry member r fixes => ih.2 entry member r ?_⟩
      all_goals exact ⟨fixes.marks, fixes.frames, fixes.scopes, fixes.alone⟩
  | printed _ ih =>
      refine ⟨.of_image (fun r fixes => ?_) ih.1.positive ih.1.opened,
        fun entry member r fixes => ih.2 entry member r ?_⟩
      · have own := ih.1.image (r := r) ⟨fixes.marks, fixes.frames, fixes.scopes, fixes.alone⟩
        exact ⟨own.frames, own.tallies, own.contents, own.tables, own.given, own.namespaces, own.entered,
          own.session, own.stack, rfl⟩
      · exact ⟨fixes.marks, fixes.frames, fixes.scopes, fixes.alone⟩
  | @ended s s' scope fuel program v name _ run ih =>
      obtain ⟨rooted', settled⟩ := (Equi.after_rooted ih.1 (program.program_equi fuel ih.2)).1 v run
      have later : Later s s' :=
        after_of_ok run ▸ Term.eval_grows (Machine.growing_ofFuel fuel) program scope s
      refine ⟨rooted', fun entry member => ?_⟩
      rcases List.mem_cons.mp member with rfl | member
      · exact settled
      · exact fun r fixes => ih.2 entry member r (fixes.before later)
  | @stopped s s' scope fuel program e _ run ih =>
      have later : Later s s' :=
        after_of_error run ▸ Term.eval_grows (Machine.growing_ofFuel fuel) program scope s
      exact ⟨(Equi.after_rooted ih.1 (program.program_equi fuel ih.2)).2 e run, fun entry member r fixes =>
        ih.2 entry member r (fixes.before later)⟩

end Reached

end Knot
