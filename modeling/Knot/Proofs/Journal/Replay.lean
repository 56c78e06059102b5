import Knot.Environment

/-!
The journal of a run. As long as no dictionary stands between a frame and its names, the frames are
those that the events of the journal make of the frames before.
-/

namespace Knot

namespace Event

/-- The frames after an event. -/
def apply (e : Event) (frames : Array Frame) : Array Frame :=
  match e with
  | opened frame => frames.push frame
  | bound _ id name v =>
      match (frames.getD id {}).set name v with
      | .ok frame => frames.setIfInBounds id frame
      | .error _ => frames
  | unbound id name =>
      match (frames.getD id {}).unset name with
      | .ok frame => frames.setIfInBounds id frame
      | .error _ => frames
  | overwritten _ => frames

def isOverwrite : Event → Bool
  | overwritten _ => true
  | _ => false

/-- Whether a name was changed otherwise than by passing an argument. An array of one empty name
counts as no parameters, so what it passes is bound where the procedure was made. -/
def isWrite : Event → Bool
  | bound .call _ name _ => name.isEmpty
  | bound .program .. | unbound .. | overwritten _ => true
  | opened _ => false

/-- An argument is bound in one of the frames from a number on. -/
def PassesFrom (n : Nat) : Event → Prop
  | bound .call id name _ => n ≤ id ∨ name = ""
  | _ => True

/-- A frame is opened without names, and the dictionary of names is not bound as a name is. -/
def WellShaped : Event → Prop
  | opened frame => frame.bindings = []
  | bound _ _ name _ => name ≠ "__dict__"
  | _ => True

end Event

/-- The frames after events, of which the newest comes first. -/
def replay (events : List Event) (frames : Array Frame) : Array Frame :=
  events.foldr Event.apply frames

theorem replay_append (new old : List Event) (frames : Array Frame) :
    replay (new ++ old) frames = replay new (replay old frames) := List.foldr_append

/-- Events that tell how one store became another. -/
structure Tells (n : Nat) (events : List Event) (t t' : Store) : Prop where
  journal : t'.journal = events ++ t.journal
  shaped : ∀ e ∈ events, e.WellShaped
  frames : (∀ e ∈ events, e.isOverwrite = false) → t'.frames = replay events t.frames
  passed : t.writer = .program → ∀ e ∈ events, e.PassesFrom n

/-- What was done between two stores is told by the journal; arguments were bound in the frames from
a number on. -/
structure Told (n : Nat) (t t' : Store) : Prop where
  writer : t'.writer = t.writer
  events : ∃ events, Tells n events t t'

variable {n : Nat} {t t' t'' : Store}

theorem Told.still (frames : t'.frames = t.frames) (journal : t'.journal = t.journal)
    (writer : t'.writer = t.writer) : Told n t t' :=
  ⟨writer, [], journal, (fun _ member => nomatch member), fun _ => frames,
    fun _ _ member => nomatch member⟩

theorem Told.refl (t : Store) : Told n t t := .still rfl rfl rfl

theorem Event.PassesFrom.mono {m n : Nat} {e : Event} (passes : e.PassesFrom n) (below : m ≤ n) :
    e.PassesFrom m := by
  cases e with
  | bound writer id name v =>
      cases writer with
      | program => trivial
      | call => exact passes.imp_left (Nat.le_trans below)
  | _ => trivial

theorem Told.mono {m : Nat} (told : Told n t t') (below : m ≤ n) : Told m t t' := by
  obtain ⟨writer, events, told⟩ := told
  exact ⟨writer, events, told.journal, told.shaped, told.frames,
    fun program e member => (told.passed program e member).mono below⟩

theorem Tells.trans {old new : List Event} (first : Tells n old t t') (second : Tells n new t' t'')
    (writer : t'.writer = t.writer) : Tells n (new ++ old) t t'' where
  journal := by rw [second.journal, first.journal, List.append_assoc]
  shaped := List.forall_mem_append.mpr ⟨second.shaped, first.shaped⟩
  frames plain := by
    have plain' := List.forall_mem_append.mp plain
    rw [second.frames plain'.1, first.frames plain'.2, replay_append]
  passed program := List.forall_mem_append.mpr
    ⟨second.passed (writer.trans program), first.passed program⟩

theorem Told.trans (first : Told n t t') (second : Told n t' t'') : Told n t t'' := by
  obtain ⟨writer, old, told⟩ := first
  obtain ⟨writer', new, told'⟩ := second
  exact ⟨writer'.trans writer, new ++ old, told.trans told' writer⟩

/-! What one step tells. -/

namespace Store

theorem setFrame_journal (id : Nat) (frame : Frame) (s : Store) :
    (s.setFrame id frame).journal = s.journal := by
  unfold setFrame
  dsimp only
  split <;> rfl

theorem setFrame_writer (id : Nat) (frame : Frame) (s : Store) :
    (s.setFrame id frame).writer = s.writer := by
  unfold setFrame
  dsimp only
  split <;> rfl

/-- A frame that shares its names with no other one is put in place alone. -/
theorem setFrame_of_not_shared {s : Store} {id : Nat} {frame : Frame}
    (alone : s.isShared id frame = false) :
    s.setFrame id frame = { s with frames := s.frames.setIfInBounds id frame } := by
  unfold setFrame
  dsimp only
  split
  · rfl
  · rename_i shared
    have others : ∀ other < s.frames.size, other ≠ id → (s.frame other).mark ≠ frame.mark := by
      intro other below ne same
      have known : (s.namespaces.lookup frame.mark).isSome = true := by
        cases held : s.namespaces.lookup frame.mark <;> simp_all
      simp only [isShared, known, Bool.true_and, List.any_eq_false, List.mem_range] at alone
      simpa [ne, same] using alone other below
    have same : (s.frames.setIfInBounds id frame).map (fun other : Frame =>
        if other.mark == frame.mark then { other with bindings := frame.bindings } else other) =
        s.frames.setIfInBounds id frame := by
      refine Array.ext (by simp) fun i below _ => ?_
      have below : i < s.frames.size := by simpa using below
      rw [Array.getElem_map, Array.getElem_setIfInBounds below]
      by_cases here : id = i
      · simp [here]
      · have other := others i below fun same => here same.symm
        simp only [Store.frame, Array.getD_eq_getD_getElem?, Array.getElem?_eq_getElem below,
          Option.getD_some] at other
        simp [here, other]
    rw [same]

end Store

theorem Told.change {id : Nat} {frame : Frame} {e : Event}
    (shaped : e.WellShaped) (applied : e.apply t.frames = t.frames.setIfInBounds id frame)
    (passed : t.writer = .program → e.PassesFrom n) : Told n t (t.change id frame e) := by
  have journal (e : Event) : ((t.setFrame id frame).note e).journal = [e] ++ t.journal :=
    congrArg (e :: ·) (Store.setFrame_journal id frame t)
  refine ⟨Store.setFrame_writer id frame t, ?_⟩
  cases shared : t.isShared id frame with
  | true =>
      refine ⟨[.overwritten id], ?_, fun e member => ?_, fun plain => ?_, fun _ e member => ?_⟩
      · simp only [Store.change, shared, if_true, journal]
      · rw [List.mem_singleton.mp member]
        trivial
      · simp [Event.isOverwrite] at plain
      · rw [List.mem_singleton.mp member]
        trivial
  | false =>
      refine ⟨[e], ?_, fun e' member => ?_, fun _ => ?_, fun program e' member => ?_⟩
      · simp only [Store.change, shared, Bool.false_eq_true, if_false, journal]
      · rw [List.mem_singleton.mp member]
        exact shaped
      · simp only [Store.change, shared, Bool.false_eq_true, if_false, Store.note,
          Store.setFrame_of_not_shared shared, replay, List.foldr_cons, List.foldr_nil, applied]
      · rw [List.mem_singleton.mp member]
        exact passed program

theorem Told.bound {id : Nat} {name : String} {v : Value} {frame : Frame}
    (ne : name ≠ "__dict__") (set : (t.frame id).set name v = .ok frame) :
    Told n t (t.change id frame (.bound t.writer id name v)) := by
  refine .change ne ?_ fun program => ?_
  · simp only [Store.frame] at set
    simp only [Event.apply, set]
  · rw [program]
    trivial

theorem Told.unbound {id : Nat} {name : String} {frame : Frame}
    (unset : (t.frame id).unset name = .ok frame) :
    Told n t (t.change id frame (.unbound id name)) := by
  refine .change trivial ?_ fun _ => trivial
  simp only [Store.frame] at unset
  simp only [Event.apply, unset]

theorem Told.push {frame : Frame} (empty : frame.bindings = []) : Told n t (t.push frame) := by
  refine ⟨rfl, [.opened frame], rfl, fun e member => ?_, fun _ => rfl, fun _ e member => ?_⟩
  · rw [List.mem_singleton.mp member]
    exact empty
  · rw [List.mem_singleton.mp member]
    trivial

/-- A change by way of a dictionary tells nothing of the frames. -/
theorem Told.overwritten {s : Store} (id : Nat) (journal : s.journal = t.journal)
    (writer : s.writer = t.writer) : Told n t (s.note (.overwritten id)) := by
  refine ⟨writer, [.overwritten id], congrArg (Event.overwritten id :: ·) journal, fun e member => ?_,
    fun plain => ?_, fun _ e member => ?_⟩
  · rw [List.mem_singleton.mp member]
    trivial
  · simp [Event.isOverwrite] at plain
  · rw [List.mem_singleton.mp member]
    trivial

end Knot
