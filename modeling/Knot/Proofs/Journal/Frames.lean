import Knot.Proofs.Journal.Machine
import Knot.Session

/-!
What runs leave alone. The frames that there were before a run are as they were if no event of the run
is about one of them; and what calls bind by themselves is never about one of them.
-/

namespace Knot

open Run

namespace Event

/-- Whether an event leaves the frames before a number alone. -/
def Spares (n : Nat) : Event → Prop
  | opened _ => True
  | bound _ id _ _ | unbound id _ => n ≤ id
  | overwritten _ => False

instance (n : Nat) (e : Event) : Decidable (e.Spares n) :=
  match e with
  | opened _ => isTrue trivial
  | bound _ id _ _ | unbound id _ => inferInstanceAs (Decidable (n ≤ id))
  | overwritten _ => isFalse id

/-- Whether a program asked for a name to be bound or unbound. -/
def isAsked : Event → Bool
  | bound .program .. | unbound .. => true
  | _ => false

variable {n : Nat} {e : Event}

theorem size_apply (e : Event) (frames : Array Frame) : frames.size ≤ (e.apply frames).size := by
  cases e with
  | opened frame => simp [apply]
  | bound writer id name v =>
      simp only [apply]
      split <;> simp
  | unbound id name =>
      simp only [apply]
      split <;> simp
  | overwritten id => exact Nat.le_refl _

theorem Spares.isOverwrite (spares : e.Spares n) : e.isOverwrite = false := by
  cases e with
  | overwritten => exact spares.elim
  | _ => rfl

/-- One event leaves the frames before a number as they were. -/
theorem Spares.apply (spares : e.Spares n) {frames : Array Frame} (known : n ≤ frames.size) {i : Nat}
    (before : i < n) : (e.apply frames).getD i {} = frames.getD i {} := by
  have elsewhere {id : Nat} (after : n ≤ id) (frame : Frame) :
      (frames.setIfInBounds id frame).getD i {} = frames.getD i {} := by
    simp [Array.getD_eq_getD_getElem?, show id ≠ i by omega]
  cases e with
  | opened frame =>
      simp [Event.apply, Array.getD_eq_getD_getElem?, Array.getElem?_push, show i ≠ frames.size by omega]
  | bound writer id name v =>
      simp only [Event.apply]
      split
      · exact elsewhere spares _
      · rfl
  | unbound id name =>
      simp only [Event.apply]
      split
      · exact elsewhere spares _
      · rfl
  | overwritten id => rfl

/-- What is no write binds an argument in one of the frames from a number on. -/
theorem PassesFrom.spares (passes : e.PassesFrom n) (quiet : e.isWrite = false) : e.Spares n := by
  cases e with
  | opened => trivial
  | bound writer id name v =>
      cases writer with
      | program => cases quiet
      | call =>
          refine passes.resolve_right fun empty => ?_
          simp [isWrite, empty] at quiet
  | unbound => cases quiet
  | overwritten => cases quiet

end Event

theorem size_replay (events : List Event) (frames : Array Frame) :
    frames.size ≤ (replay events frames).size := by
  induction events with
  | nil => exact Nat.le_refl _
  | cons e events ih => exact ih.trans (e.size_apply _)

/-- A run of events leaves the frames before a number as they were. -/
theorem replay_spares {n : Nat} {events : List Event} (spares : ∀ e ∈ events, e.Spares n)
    {frames : Array Frame} (known : n ≤ frames.size) {i : Nat} (before : i < n) :
    (replay events frames).getD i {} = frames.getD i {} := by
  induction events with
  | nil => rfl
  | cons e events ih =>
      have rest := ih fun e member => spares e (List.mem_cons_of_mem _ member)
      have first := (spares e (List.mem_cons_self ..)).apply
        (known.trans (size_replay events frames)) before
      exact first.trans rest

namespace Store

/-- The events between two stores, the newest first. -/
def since (t t' : Store) : List Event := t'.journal.take (t'.journal.length - t.journal.length)

end Store

variable {n : Nat} {t t' : Store}

theorem Tells.since {events : List Event} (tells : Tells n events t t') : t.since t' = events := by
  simp [Store.since, tells.journal]

theorem Told.tells (told : Told n t t') : Tells n (t.since t') t t' := by
  obtain ⟨events, tells⟩ := told.events
  exact tells.since ▸ tells

/-- Frames that no event is about are as they were. -/
theorem Told.frame_eq {m : Nat} (told : Told n t t') (spares : ∀ e ∈ t.since t', e.Spares m)
    (known : m ≤ t.frames.size) {id : Nat} (before : id < m) : t'.frame id = t.frame id := by
  have frames := told.tells.frames fun e member => (spares e member).isOverwrite
  rw [Store.frame, Store.frame, frames]
  exact replay_spares spares known before

namespace Machine

/-- Calling anything, an evaluator or a procedure or an application among it, leaves every frame that
there was with its names, in their order, and their values, whether the call returns or faults or runs
out of fuel, if no program binds or unbinds a name meanwhile and no name is changed by way of a
dictionary; and every argument is bound in a frame that was not there before. -/
theorem call_keeps_frames (fuel : Nat) (f : Value) (args : List Value) (named : Named) {t : Store}
    (program : t.writer = .program)
    (quiet : ∀ e ∈ t.since (((ofFuel fuel).call f args named).after t), e.isWrite = false) :
    (∀ id < t.frames.size, (((ofFuel fuel).call f args named).after t).frame id = t.frame id) ∧
      ∀ id name v, .bound .call id name v ∈ t.since (((ofFuel fuel).call f args named).after t) →
        t.frames.size ≤ id := by
  have told := ((growing_ofFuel fuel).call f args named t).told
  have spares : ∀ e ∈ t.since (((ofFuel fuel).call f args named).after t), e.Spares t.frames.size :=
    fun e member => (told.tells.passed program e member).spares (quiet e member)
  exact ⟨fun id before => told.frame_eq spares (Nat.le_refl _) before,
    fun id name v member => spares _ member⟩

/-- A procedure in the outermost environment that gives back its one argument. -/
def identity : Value :=
  let header : Header := { name := "<lambda>", path := "<lambda>", params := ["π"], plain := true }
  .procedure 20 (.dict 21 [(.str "body", .closure 22 header (.item (.var "π") (.lit (.str "x"))) []),
    (.str "parameters", .list 23 [.str "x"])]) outermost

theorem call_keeps_frames_identity :
    Session.start.writer = .program ∧
      (∀ e ∈ Session.start.since (((ofFuel 9).call identity [.int 5] []).after Session.start),
        e.isWrite = false) ∧
      ∀ id < Session.start.frames.size,
        (((ofFuel 9).call identity [.int 5] []).after Session.start).frame id = Session.start.frame id :=
  have quiet : ∀ e ∈ Session.start.since (((ofFuel 9).call identity [.int 5] []).after Session.start),
      e.isWrite = false := by decide +kernel
  ⟨rfl, quiet, (call_keeps_frames 9 identity [.int 5] [] rfl quiet).1⟩

/-- A call that passes the dictionary of the outermost names as the dictionary of its own, and then one
more argument. -/
def sharingCall : Term :=
  .app (.prim .apply)
    [.app (.prim .lambda)
        [.fn ["π"] (.lit .none), .list [.lit (.str "__dict__"), .lit (.str "x")]],
      .list [.app (.var "Var") [.lit (.str "__dict__")], .lit (.int 5)], .var "ΓΠ"]

/-- A call alone can bind a name in an environment that there was: no program asks for a name to be
bound or unbound, and the outermost environment has one name more. -/
theorem sharingCall_writes :
    (∀ e ∈ Session.start.since ((sharingCall.eval (ofFuel 9) []).after Session.start),
        e.isAsked = false) ∧
      Session.start.names 0 = ["Υ", "Υ1"] ∧
      ((sharingCall.eval (ofFuel 9) []).after Session.start).names 0 = ["Υ", "Υ1", "x"] := by
  decide +kernel

end Machine

end Knot
