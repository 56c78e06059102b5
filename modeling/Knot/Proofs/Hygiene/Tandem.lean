import Knot.Proofs.Calls.Binding
import Knot.Proofs.Recursion.Fixing

/-!
Two runs in step. Two states differ in what the outermost environment binds some names to, and in nothing
else that a run could depend on. Runs from them go in tandem if both come to the same, in states that differ
in that only. What reads no frame, or frames of other environments, goes so.
-/

namespace Knot

open Run Store

variable {N : String → Prop}

/-- Two frames that differ only in what they bind some names to. -/
structure Frame.Differ (N : String → Prop) (f g : Frame) : Prop where
  card : g.card = f.card
  mark : g.mark = f.mark
  names : ∀ name, ¬N name → g.bindings.lookup name = f.bindings.lookup name

theorem Frame.Differ.refl (f : Frame) : f.Differ N f := ⟨rfl, rfl, fun _ _ => rfl⟩

/-- Two states that differ only in what the outermost environment binds some names to, and in what is told of
how they came about. -/
structure Differ (N : String → Prop) (s t : Store) : Prop where
  rest : t = { s with frames := t.frames, journal := t.journal, deeds := t.deeds }
  size : t.frames.size = s.frames.size
  inner : ∀ id, id ≠ 0 → t.frame id = s.frame id
  root : (s.frame 0).Differ N (t.frame 0)

/-- The store that code runs from when it is called: one call deeper, where calls are counted. -/
def Store.called (s : Store) : Store := if s.stack.room.isNone then s else s.inside

theorem Store.beneath_called (s : Store) : s.Beneath s.called := by
  unfold Store.called
  split
  · exact (Quiet.refl s).beneath
  · exact Beneath.inside s

/-- An environment that is not the outermost one. -/
def Value.Inside (env : Value) : Prop := ∃ id outer, env = .environment id outer ∧ id ≠ 0

namespace Differ

variable {s t : Store}

theorem refl (s : Store) : Differ N s s := ⟨rfl, rfl, fun _ _ => rfl, .refl _⟩

theorem weaken {M : String → Prop} (differ : Differ N s t) (more : ∀ name, N name → M name) : Differ M s t :=
  { differ with
    root := ⟨differ.root.card, differ.root.mark,
      fun name plain => differ.root.names name fun some => plain (more name some)⟩ }

section

variable (differ : Differ N s t)
include differ

theorem nextMark : t.nextMark = s.nextMark := by rw [differ.rest]

theorem stack : t.stack = s.stack := by rw [differ.rest]

theorem contents : t.contents = s.contents := by rw [differ.rest]

theorem tables : t.tables = s.tables := by rw [differ.rest]

theorem namespaces : t.namespaces = s.namespaces := by rw [differ.rest]

theorem given : t.given = s.given := by rw [differ.rest]

theorem entered : t.entered = s.entered := by rw [differ.rest]

theorem session : t.session = s.session := by rw [differ.rest]

theorem marks (id : Nat) : (t.frame id).mark = (s.frame id).mark := by
  by_cases zero : id = 0
  · rw [zero]
    exact differ.root.mark
  · rw [differ.inner id zero]

/-! What holds in both. -/

theorem fresh (new : s.Fresh) : t.Fresh := by
  obtain ⟨positive, opened, contents, tables, namespaces, entered, given⟩ := new
  rw [← differ.nextMark] at positive contents tables namespaces entered
  rw [← differ.contents] at contents
  rw [← differ.tables] at tables
  rw [← differ.namespaces] at namespaces
  rw [← differ.entered] at entered
  rw [← differ.given] at given
  rw [← differ.size] at opened given
  exact ⟨positive, opened, contents, tables, namespaces, entered, given⟩

theorem table?_none {mark : Nat} (nothing : s.table? mark = none) : t.table? mark = none := by
  unfold Store.table? at nothing ⊢
  rw [differ.namespaces, differ.tables]
  cases known : s.namespaces.lookup mark with
  | some id =>
      rw [known] at nothing
      cases nothing
  | none =>
      rw [known] at nothing
      exact nothing

theorem made {params : List String} {body env proc : Value} (made : s.Made params body env proc) :
    t.Made params body env proc := by
  obtain ⟨mark, dict, list, rfl, positive, known, known', contents, table⟩ := made
  rw [← differ.nextMark] at known known'
  rw [← differ.contents] at contents
  exact ⟨mark, dict, list, rfl, positive, known, known', contents, differ.table?_none table⟩

theorem listed {params : List String} {v : Value} (listed : s.Listed params v) : t.Listed params v := by
  obtain ⟨list, rfl, positive, known, contents⟩ := listed
  rw [← differ.nextMark] at known
  rw [← differ.contents] at contents
  exact ⟨list, rfl, positive, known, contents⟩

theorem binds {name : String} {v outer env : Value} (inside : env.Inside) (binds : s.Binds name v outer env) :
    t.Binds name v outer env := by
  obtain ⟨id, rfl, known, bindings, given⟩ := binds
  obtain ⟨_, _, same, apart⟩ := inside
  cases same
  rw [← differ.size] at known
  rw [← differ.inner id apart] at bindings
  rw [← differ.given] at given
  exact ⟨id, rfl, known, bindings, given⟩

/-! What changes both alike. -/

theorem atDepth (depth : Nat) : Differ N (Run.atDepth depth s) (Run.atDepth depth t) :=
  ⟨congrArg (Run.atDepth depth) differ.rest, differ.size, differ.inner, differ.root⟩

theorem inside : Differ N s.inside t.inside := by
  unfold Store.inside
  rw [differ.stack]
  exact differ.atDepth _

theorem called : Differ N s.called t.called := by
  unfold Store.called
  rw [differ.stack]
  split
  · exact differ
  · exact differ.inside

theorem did (deed : Deed) : Differ N (s.did deed) (t.did deed) :=
  ⟨congrArg (Store.did · deed) differ.rest, differ.size, differ.inner, differ.root⟩

theorem skip (n : Nat) : Differ N (s.skip n) (t.skip n) :=
  ⟨congrArg (Store.skip · n) differ.rest, differ.size, differ.inner, differ.root⟩

theorem written (writer : Writer) : Differ N { s with writer } { t with writer } :=
  ⟨congrArg (fun s : Store => { s with writer }) differ.rest, differ.size, differ.inner, differ.root⟩

theorem push (frame : Frame) : Differ N (s.push frame) (t.push frame) := by
  have moved (id : Nat) (away : id ≠ s.frames.size) :
      (s.push frame).frame id = s.frame id ∧ (t.push frame).frame id = t.frame id := by
    constructor
    · exact (frameAt_push _ _ _).trans (if_neg away)
    · exact (frameAt_push _ _ _).trans (if_neg (differ.size ▸ away))
  have new : (s.push frame).frame s.frames.size = frame ∧ (t.push frame).frame s.frames.size = frame := by
    constructor
    · exact (frameAt_push _ _ _).trans (if_pos rfl)
    · exact (frameAt_push _ _ _).trans (if_pos differ.size.symm)
  refine ⟨congrArg (Store.push · frame) differ.rest, ?_, fun id apart => ?_, ?_⟩
  · simp only [Store.push, Array.size_push, differ.size]
  · by_cases away : id = s.frames.size
    · rw [away, new.1, new.2]
    · rw [(moved id away).1, (moved id away).2, differ.inner id apart]
  · by_cases away : 0 = s.frames.size
    · rw [away, new.1, new.2]
      exact .refl frame
    · rw [(moved 0 away).1, (moved 0 away).2]
      exact differ.root

theorem opened : Differ N s.opened t.opened := by
  unfold Store.opened
  rw [differ.nextMark]
  exact differ.push _

theorem change {id : Nat} (apart : id ≠ 0) (frame : Frame) (e : Event)
    (alone : s.namespaces.lookup frame.mark = none) : Differ N (s.change id frame e) (t.change id frame e) := by
  have alone' : t.namespaces.lookup frame.mark = none := by rw [differ.namespaces, alone]
  have set (u : Store) (other : Nat) : frameAt (u.frames.setIfInBounds id frame) other =
      if other = id ∧ id < u.frames.size then frame else u.frame other := frameAt_set _ _ _ _
  rw [Store.change_alone id alone e, Store.change_alone id alone' e]
  refine ⟨?_, ?_, fun other away => ?_, ?_⟩
  · exact congrArg (fun u : Store => { u with
      frames := t.frames.setIfInBounds id frame, journal := e :: t.journal, deeds := t.deeds }) differ.rest
  · simp only [Array.size_setIfInBounds, differ.size]
  · change frameAt _ other = frameAt _ other
    rw [set, set, differ.size, differ.inner other away]
  · change (frameAt _ 0).Differ N (frameAt _ 0)
    rw [set, set, if_neg fun both => apart both.1.symm, if_neg fun both => apart both.1.symm]
    exact differ.root

end

end Differ

/-- Binding a name that is nothing else in a frame. -/
theorem bind_eq (id : Nat) {name : String} (plain : isReserved name = false) (v : Value) (s : Store) :
    writing .call (Run.bind id name v) s = .ok () { Store.change { s with writer := .call } id
      { s.frame id with bindings := (s.frame id).bindings.assign name v } (.bound .call id name v) with
      writer := s.writer } := by
  have set : (s.frame id).set name v = .ok { s.frame id with bindings := (s.frame id).bindings.assign name v } := by
    unfold Frame.set
    rw [if_neg (ne_dict_of_plain plain), Card.set?_eq_none plain]
  have bound : Run.bind id name v { s with writer := .call } =
      .ok () (Store.change { s with writer := .call } id
        { s.frame id with bindings := (s.frame id).bindings.assign name v } (.bound .call id name v)) := by
    rw [Run.bind, if_neg (ne_dict_of_plain plain)]
    change (Run.ofExcept ((s.frame id).set name v) >>= fun frame =>
      modify fun t => t.change id frame (.bound t.writer id name v)) _ = _
    rw [set]
    rfl
  unfold writing
  rw [bound]

/-! Results. -/

/-- Stops for the same cause. What a broken contract tells of environments shows the names in them. -/
inductive Stop.Alike : Stop → Stop → Prop
  | same (e : Stop) : Alike e e
  | contract (v v' : ContractFault) : Alike (.fault (.contract v)) (.fault (.contract v'))

/-- Two runs that come to the same, in states that differ in what the outermost environment binds some names to. -/
inductive Tandem {α : Type} (N : String → Prop) (P : α → Store → Prop) :
    EStateM.Result Stop Store α → EStateM.Result Stop Store α → Prop
  | ok {a : α} {s t : Store} : Differ N s t → P a s → Tandem N P (.ok a s) (.ok a t)
  | error {e e' : Stop} {s t : Store} : Differ N s t → e.Alike e' → Tandem N P (.error e s) (.error e' t)

namespace Tandem

variable {α β : Type} {s t : Store} {P : α → Store → Prop} {Q : β → Store → Prop}

theorem mono {r r' : EStateM.Result Stop Store α} {P' : α → Store → Prop} (tandem : Tandem N P r r')
    (weaken : ∀ a s, P a s → P' a s) : Tandem N P' r r' := by
  cases tandem with
  | ok differ holds => exact .ok differ (weaken _ _ holds)
  | error differ alike => exact .error differ alike

theorem bind {x x' : Run α} {f f' : α → Run β} (first : Tandem N P (x s) (x' t))
    (second : ∀ a u u', x s = .ok a u → x' t = .ok a u' → Differ N u u' → P a u → Tandem N Q (f a u) (f' a u')) :
    Tandem N Q ((x >>= f) s) ((x' >>= f') t) := by
  cases run : x s with
  | ok a u =>
      rw [run] at first
      cases run' : x' t with
      | ok a' u' =>
          rw [run'] at first
          cases first with
          | ok differ holds =>
              rw [bind_of_ok run, bind_of_ok run']
              exact second a u u' run run' differ holds
      | error e u' =>
          rw [run'] at first
          cases first
  | error e u =>
      rw [run] at first
      cases run' : x' t with
      | ok a' u' =>
          rw [run'] at first
          cases first
      | error e' u' =>
          rw [run'] at first
          cases first with
          | error differ alike =>
              rw [bind_of_error run, bind_of_error run']
              exact .error differ alike

/-- What holds of a value holds of the one that the first run ended with. -/
theorem ran {x : Run α} {r : EStateM.Result Stop Store α} (tandem : Tandem N P (x s) r) :
    Tandem N (fun a t => P a t ∧ x s = .ok a t) (x s) r := by
  generalize run : x s = r' at tandem
  cases tandem with
  | ok differ holds => exact .ok differ ⟨holds, rfl⟩
  | error differ alike => exact .error differ alike

/-- What comes after steps that are known. -/
theorem step {x x' : Run α} {f f' : α → Run β} {a : α} {u u' : Store} (run : x s = .ok a u) (run' : x' t = .ok a u')
    (rest : Tandem N Q (f a u) (f' a u')) : Tandem N Q ((x >>= f) s) ((x' >>= f') t) := by
  rwa [bind_of_ok run, bind_of_ok run']

/-- One level deeper. -/
theorem called {x x' : Run α} (differ : Differ N s t) (steady : Steady P)
    (inner : Tandem N P (x s.called) (x' t.called)) : Tandem N P (Run.deeper x s) (Run.deeper x' t) := by
  have stack := differ.stack
  unfold Store.called at inner
  unfold Run.deeper
  rw [stack] at inner ⊢
  by_cases counted : s.stack.room.isNone
  · rw [if_pos counted, if_pos counted] at inner ⊢
    exact inner
  · rw [if_neg counted, if_neg counted] at inner ⊢
    by_cases full : s.stack.full
    · rw [if_pos full, if_pos full]
      exact .error (differ.did .refused) (.same _)
    · rw [if_neg full, if_neg full]
      have deep : t.inside = Run.atDepth (s.stack.depth + 1) t := by rw [Store.inside, stack]
      rw [deep] at inner
      generalize run : x s.inside = r at inner
      generalize run' : x' (Run.atDepth (s.stack.depth + 1) t) = r' at inner
      have run'' : x (Run.atDepth (s.stack.depth + 1) s) = r := run
      dsimp only
      rw [run'', run']
      cases inner with
      | ok differ holds => exact .ok (differ.atDepth _) (steady _ _ _ holds)
      | error differ alike => exact .error (differ.atDepth _) alike

/-- One level deeper, wherever the code runs from there. -/
theorem deeper {x x' : Run α} (differ : Differ N s t) (steady : Steady P)
    (inner : ∀ u u', s.Beneath u → Differ N u u' → Tandem N P (x u) (x' u')) :
    Tandem N P (Run.deeper x s) (Run.deeper x' t) :=
  .called differ steady (inner _ _ s.beneath_called differ.called)

/-- A call takes one level. -/
theorem call {P : Value → Store → Prop} {n : Nat} {f : Value} {args : List Value} (differ : Differ N s t)
    (steady : Steady P)
    (inner : ∀ n' u u', n = n' + 1 → s.Beneath u → Differ N u u' →
      Tandem N P (Machine.callValue (.ofFuel n') f args [] u) (Machine.callValue (.ofFuel n') f args [] u')) :
    Tandem N P ((Machine.ofFuel n).call f args [] s) ((Machine.ofFuel n).call f args [] t) := by
  cases n with
  | zero => exact .error differ (.same _)
  | succ n => exact deeper differ steady fun u u' beneath differ => inner n u u' rfl beneath differ

/-- So does evaluating an expression. -/
theorem evaluate {P : Value → Store → Prop} {n : Nat} {v env : Value} (differ : Differ N s t) (steady : Steady P)
    (inner : ∀ n' u u', n = n' + 1 → s.Beneath u → Differ N u u' →
      Tandem N P (Calculus.eval (.ofFuel n') v env u) (Calculus.eval (.ofFuel n') v env u')) :
    Tandem N P ((Machine.ofFuel n).evaluate v env s) ((Machine.ofFuel n).evaluate v env t) := by
  cases n with
  | zero => exact .error differ (.same _)
  | succ n => exact deeper differ steady fun u u' beneath differ => inner n u u' rfl beneath differ

end Tandem

end Knot
