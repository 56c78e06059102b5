import Knot.Proofs.Renaming.Machine
import Knot.Session

/-!
What programs can hold. A session gives out marks and frames one after another, so a renaming that
leaves alone the ones that it gave out leaves its store and the values in it as they are.
-/

namespace Knot

open Run Renaming

/-- The store that a session starts with where nothing bounds how deep calls are nested. -/
def Session.unbounded : Store := { start with stack := { start.stack with room := none } }

/-- The stores of sessions with the values that programs have names for in them: each program runs in
the store that the ones before it left, and what it ends with can be named from then on. -/
inductive Held : Store → Scope → Prop
  | start : Held Session.unbounded []
  | ended {s s' : Store} {scope : Scope} {fuel : Nat} {program : Term} {v : Value} (name : String) :
      Held s scope → program.eval (.ofFuel fuel) scope s = .ok v s' → Held s' ((name, v) :: scope)
  | stopped {s s' : Store} {scope : Scope} {fuel : Nat} {program : Term} {e : Stop} :
      Held s scope → program.eval (.ofFuel fuel) scope s = .error e s' → Held s' scope

/-- The names and the store of a session in which programs have run, the last one first. A program that stops gives
nothing a name. -/
def Session.ran : List (String × Term) → Scope × Store
  | [] => ([], unbounded)
  | (name, program) :: before =>
      match program.eval (.ofFuel 9) (ran before).1 (ran before).2 with
      | .ok v s => ((name, v) :: (ran before).1, s)
      | .error _ s => ((ran before).1, s)

theorem Held.ran (programs : List (String × Term)) : Held (Session.ran programs).2 (Session.ran programs).1 := by
  induction programs with
  | nil => exact .start
  | cons program before ih =>
      unfold Session.ran
      split
      · exact .ended _ ih ‹_›
      · exact .stopped ih ‹_›

/-- A renaming that leaves alone the marks and the frames that a store has given out, and what functions
see; its images have nothing of their own beside the store. -/
structure Renaming.Fixes (r : Renaming) (s : Store) : Prop where
  marks : ∀ m < s.nextMark, r.mark m = m
  frames : ∀ id < s.frames.size, r.frame id = id
  scopes : r.KeepsScopes
  alone : r.own = []

/-- A value of marks and frames that a store has given out. -/
def Settled (s : Store) (v : Value) : Prop := ∀ r : Renaming, r.Fixes s → v.rename r = v

/-- A store of marks and frames that it has given out itself, without a bound for the depth of calls. -/
structure Rooted (s : Store) : Prop where
  image : ∀ r : Renaming, r.Fixes s → Image r s s
  positive : 0 < s.nextMark
  opened : 0 < s.frames.size
  room : s.stack.room = none

variable {s s' : Store} {r : Renaming} {scope : Scope}

theorem Renaming.Fixes.before (fixes : r.Fixes s') (later : Later s s') : r.Fixes s :=
  ⟨fun m below => fixes.marks m (below.trans_le later.marks),
    fun id below => fixes.frames id (below.trans_le later.frames), fixes.scopes, fixes.alone⟩

theorem Renaming.Fixes.allots (fixes : r.Fixes s') : Allots r s s' s :=
  ⟨fun _ below => fixes.marks _ below, fun _ below => fixes.frames _ below⟩

theorem Rooted.unbounded : Rooted Session.unbounded where
  positive := by decide
  opened := by decide
  room := rfl
  image r fixes := by
    have marks (m : Nat) (below : m < 16) : r.mark m = m := fixes.marks m below
    have first : r.frame 0 = 0 := r.frame_zero
    have held : (Session.outermostFrame).rename r = Session.outermostFrame := by
      simp [Session.outermostFrame, Session.combinator, Frame.rename, marks, outermost, fixes.scopes _]
    refine ⟨⟨fun id => ?_, fun id => ?_, fun id below apart => ?_⟩, rfl, rfl, rfl, rfl, rfl, rfl, rfl,
      rfl, rfl⟩
    · change r.frame id < 1 ↔ id < 1
      rw [Nat.lt_one_iff, Nat.lt_one_iff, r.frame_eq_zero]
    · cases id with
      | zero =>
          rw [first]
          exact held.symm
      | succ id =>
          have outside : 0 < r.frame (id + 1) :=
            Nat.pos_of_ne_zero fun zero => Nat.succ_ne_zero id (r.frame_eq_zero.mp zero)
          rw [frameAt_of_size_le outside, frameAt_of_size_le (Nat.succ_le_succ (Nat.zero_le id)),
            Frame.rename_empty]
    · obtain rfl : id = 0 := Nat.lt_one_iff.mp below
      exact absurd first (apart 0)

theorem Held.rooted (held : Held s scope) :
    Rooted s ∧ ∀ r : Renaming, r.Fixes s → r.named scope = scope := by
  induction held with
  | start => exact ⟨.unbounded, fun _ _ => rfl⟩
  | @ended s s' scope fuel program v name _ run ih =>
      have later : Later s s' :=
        after_of_ok run ▸ Term.eval_grows (Machine.growing_ofFuel fuel) program scope s
      have own (r : Renaming) (fixes : r.Fixes s') : Image r s' s' ∧ v.rename r = v := by
        have before := fixes.before later
        obtain ⟨s'', run', follows⟩ := (Term.eval_equi (Machine.equivariant_ofFuel r before.scopes fuel) program
          scope).ok (ih.1.image r before) run fixes.allots
        rw [ih.2 r before, run] at run'
        injection run' with values stores
        exact ⟨stores ▸ follows.image, values.symm⟩
      refine ⟨⟨fun r fixes => (own r fixes).1, ih.1.positive.trans_le later.marks,
        ih.1.opened.trans_le later.frames,
        later.room.trans ih.1.room⟩, fun r fixes => ?_⟩
      have rest := ih.2 r (fixes.before later)
      simp only [named] at rest ⊢
      simp [(own r fixes).2, rest]
  | @stopped s s' scope fuel program e _ run ih =>
      have later : Later s s' :=
        after_of_error run ▸ Term.eval_grows (Machine.growing_ofFuel fuel) program scope s
      refine ⟨⟨fun r fixes => ?_, ih.1.positive.trans_le later.marks,
        ih.1.opened.trans_le later.frames, later.room.trans ih.1.room⟩,
        fun r fixes => ih.2 r (fixes.before later)⟩
      have before := fixes.before later
      obtain ⟨e', s'', run', bare, follows⟩ := (Term.eval_equi (Machine.equivariant_ofFuel r before.scopes fuel)
        program scope).error (ih.1.image r before) run fixes.allots
      rw [ih.2 r before, run] at run'
      cases run'
      exact follows.image

/-! A renaming that moves what a store has not given out yet. -/

/-- The renaming that makes room for more marks behind those below `m`. -/
def Renaming.shift (m more : Nat) (positive : 0 < m) : Renaming where
  mark x := if x < m then x else x + more
  frame x := x
  mark_injective x y same := by
    dsimp only at same
    split at same <;> split at same <;> omega
  frame_strict := strictMono_id
  mark_zero := if_pos positive
  frame_zero := rfl

theorem Rooted.fixes_shift (rooted : Rooted s) (more : Nat) :
    (Renaming.shift s.nextMark more rooted.positive).Fixes s :=
  ⟨fun _ below => if_pos below, fun _ _ => rfl, fun _ => rfl, rfl⟩

/-- The renaming that makes room for one more frame behind the first ones. -/
def Renaming.shiftFrame (n : Nat) (positive : 0 < n) : Renaming where
  mark x := x
  frame x := if x < n then x else x + 1
  mark_injective := Function.injective_id
  frame_strict x y below := by
    dsimp only
    split <;> split <;> omega
  mark_zero := rfl
  frame_zero := if_pos positive
  own_apart _ member := absurd member List.not_mem_nil

/-- The renaming that changes nothing. -/
def Renaming.same : Renaming where
  mark x := x
  frame x := x
  mark_injective := Function.injective_id
  frame_strict := strictMono_id
  mark_zero := rfl
  frame_zero := rfl
  own_apart _ member := absurd member List.not_mem_nil

theorem Renaming.same_fixes (s : Store) : Renaming.same.Fixes s :=
  ⟨fun _ _ => rfl, fun _ _ => rfl, fun _ => rfl, rfl⟩

namespace Rooted

variable (rooted : Rooted s)
include rooted

theorem mark_lt {mark : Nat}
    (fixed : ∀ r : Renaming, r.Fixes s → r.mark mark = mark) : mark < s.nextMark := by
  have moved := fixed _ (rooted.fixes_shift 1)
  simp only [Renaming.shift] at moved
  split at moved
  · assumption
  · omega

/-- Every frame that there is has a mark that was given out. -/
theorem frame_mark_lt (id : Nat) : (s.frame id).mark < s.nextMark :=
  rooted.mark_lt fun r fixes => by
    by_cases inside : id < s.frames.size
    · have held := (rooted.image r fixes).frame id
      rw [fixes.frames id inside] at held
      exact (congrArg Frame.mark held).symm
    · have empty : s.frame id = {} := frameAt_of_size_le (Nat.le_of_not_lt inside)
      rw [empty]
      exact r.mark_zero

/-- The dictionaries that stand for the names of a frame stand for one that there is. -/
theorem namespaces_lt {mark id : Nat} (known : s.namespaces.lookup mark = some id) :
    id < s.frames.size := by
  have fixes : (Renaming.shiftFrame s.frames.size rooted.opened).Fixes s :=
    ⟨fun _ _ => rfl, fun _ below => if_pos below, fun _ => rfl, rfl⟩
  have moved := (rooted.image _ fixes).lookup_namespaces mark
  simp only [Renaming.shiftFrame, known, Option.map_some, Option.some.injEq] at moved
  split at moved
  · assumption
  · omega

/-- What settled values hold now is settled. -/
theorem settled_head {v : Value} (settled : Settled s v) : Settled s (s.head v) := fun r fixes => by
  have held := (rooted.image r fixes).head v
  rw [settled r fixes] at held
  exact held.symm

end Rooted

/-- A value that is no dictionary with a mark that a store had given out. -/
def NewTable (s : Store) (v : Value) : Prop :=
  ∀ mark entries, v = .dict mark entries → s.nextMark ≤ mark

/-! Calls leave what settled values hold as it is, as long as they bind names in frames of their own. -/

/-- A store in which everything that an earlier one had given out holds what it held. -/
structure Keeps (s t : Store) : Prop where
  room : t.stack.room = none
  marks : s.nextMark ≤ t.nextMark
  size : s.frames.size ≤ t.frames.size
  contents : t.contents = s.contents
  namespaces : ∀ mark < s.nextMark, t.namespaces.lookup mark = s.namespaces.lookup mark
  tables : ∀ mark < s.nextMark, t.tables.lookup mark = s.tables.lookup mark
  frames : ∀ id < s.frames.size, t.frame id = s.frame id
  fresh : ∀ id < t.frames.size, s.frames.size ≤ id → s.nextMark ≤ (t.frame id).mark

namespace Keeps

variable {t : Store}

theorem refl (rooted : Rooted s) : Keeps s s :=
  ⟨rooted.room, Nat.le_refl _, Nat.le_refl _, rfl, fun _ _ => rfl, fun _ _ => rfl, fun _ _ => rfl,
    fun _ inside outside => absurd inside (Nat.not_lt.mpr outside)⟩

/-- Settled values hold what they held. -/
theorem head (keeps : Keeps s t) (rooted : Rooted s) {v : Value} (settled : Settled s v) :
    t.head v = s.head v := by
  cases v with
  | list mark items => simp only [Store.head, Store.items, keeps.contents]
  | array mark dtype shape data => simp only [Store.head, Store.items, keeps.contents]
  | dict mark entries =>
      have below : mark < s.nextMark := rooted.mark_lt fun r fixes => by
        have fixed := settled r fixes
        simp only [Value.rename] at fixed
        injection fixed
      have table : t.table? mark = s.table? mark := by
        simp only [Store.table?, keeps.namespaces mark below, keeps.tables mark below]
        cases known : s.namespaces.lookup mark with
        | none => rfl
        | some id => simp only [Store.entries, keeps.frames id (rooted.namespaces_lt known)]
      simp only [Store.head, table]
  | _ => rfl

/-- More marks may be given out. -/
theorem skip (keeps : Keeps s t) (n : Nat) : Keeps s { t with nextMark := t.nextMark + n } :=
  ⟨keeps.room, keeps.marks.trans (Nat.le_add_right _ _), keeps.size, keeps.contents, keeps.namespaces,
    keeps.tables, keeps.frames, keeps.fresh⟩

theorem writing (keeps : Keeps s t) (writer : Writer) : Keeps s { t with writer } :=
  ⟨keeps.room, keeps.marks, keeps.size, keeps.contents, keeps.namespaces, keeps.tables, keeps.frames,
    keeps.fresh⟩

theorem push (keeps : Keeps s t) (card : Card) :
    Keeps s (t.push { card, mark := t.nextMark }) where
  room := keeps.room
  marks := keeps.marks.trans (Nat.le_succ _)
  size := keeps.size.trans (by simp [Store.push])
  contents := keeps.contents
  namespaces := keeps.namespaces
  tables := keeps.tables
  frames id inside := by
    have other : id ≠ t.frames.size := (inside.trans_le keeps.size).ne
    have same : frameAt (t.frames.push { card, mark := t.nextMark }) id = _ := frameAt_push ..
    rw [if_neg other] at same
    exact same.trans (keeps.frames id inside)
  fresh id inside outside := by
    have same : frameAt (t.frames.push { card, mark := t.nextMark }) id = _ := frameAt_push ..
    by_cases last : id = t.frames.size
    · rw [if_pos last] at same
      exact (congrArg Frame.mark same).symm ▸ keeps.marks
    · rw [if_neg last] at same
      have before : id < t.frames.size := by
        simp only [Store.push, Array.size_push] at inside
        omega
      exact (congrArg Frame.mark same).symm ▸ keeps.fresh id before outside

theorem shareMark (keeps : Keeps s t) {mark : Nat} (new : s.nextMark ≤ mark) :
    Keeps s (t.shareMark mark) := by
  unfold Store.shareMark
  split
  · refine ⟨keeps.room, keeps.marks, keeps.size, keeps.contents, fun other below => ?_, keeps.tables,
      keeps.frames, keeps.fresh⟩
    rw [Bindings.lookup_assign_of_ne _ _ (below.trans_le new).ne]
    exact keeps.namespaces other below
  · exact keeps

/-- A frame that was not there before can be replaced by one with a new mark. -/
theorem placed (keeps : Keeps s t) {id : Nat} (new : s.frames.size ≤ id) {frame : Frame}
    (marked : s.nextMark ≤ frame.mark) : Keeps s { t with frames := t.frames.setIfInBounds id frame } where
  room := keeps.room
  marks := keeps.marks
  size := by simpa using keeps.size
  contents := keeps.contents
  namespaces := keeps.namespaces
  tables := keeps.tables
  frames other inside := by
    have same : frameAt (t.frames.setIfInBounds id frame) other = _ := frameAt_set ..
    rw [if_neg fun both => (inside.trans_le new).ne both.1] at same
    exact same.trans (keeps.frames other inside)
  fresh other inside outside := by
    have same : frameAt (t.frames.setIfInBounds id frame) other = _ := frameAt_set ..
    have inside' : other < t.frames.size := by simpa using inside
    have held : s.nextMark ≤ (t.frame other).mark := keeps.fresh other inside' outside
    change s.nextMark ≤ (frameAt (t.frames.setIfInBounds id frame) other).mark
    rw [same]
    by_cases here : other = id ∧ id < t.frames.size
    · rw [if_pos here]
      exact marked
    · rw [if_neg here]
      exact held

/-- Frames with a new mark can be bound alike. -/
theorem spread (keeps : Keeps s t) (rooted : Rooted s) {mark : Nat} (new : s.nextMark ≤ mark)
    (bindings : Bindings String Value) :
    Keeps s { t with frames := t.frames.map fun other =>
      if other.mark == mark then { other with bindings } else other } where
  room := keeps.room
  marks := keeps.marks
  size := by simpa using keeps.size
  contents := keeps.contents
  namespaces := keeps.namespaces
  tables := keeps.tables
  frames other inside := by
    have apart : ((t.frame other).mark == mark) = false := by
      rw [keeps.frames other inside, beq_eq_false_iff_ne]
      exact ((rooted.frame_mark_lt other).trans_le new).ne
    refine (frameAt_map t.frames _ other (inside.trans_le keeps.size)).trans ?_
    refine Eq.trans ?_ (keeps.frames other inside)
    exact if_neg (ne_true_of_eq_false apart)
  fresh other inside outside := by
    have inside' : other < t.frames.size := by simpa using inside
    have held : s.nextMark ≤ (t.frame other).mark := keeps.fresh other inside' outside
    have same := frameAt_map t.frames (fun other =>
      if other.mark == mark then { other with bindings } else other) other inside'
    change s.nextMark ≤ (frameAt (t.frames.map fun other =>
      if other.mark == mark then { other with bindings } else other) other).mark
    rw [same]
    by_cases here : ((frameAt t.frames other).mark == mark) = true
    · rw [if_pos here]
      exact held
    · rw [if_neg here]
      exact held

theorem setFrame (keeps : Keeps s t) (rooted : Rooted s) {id : Nat} (new : s.frames.size ≤ id)
    {frame : Frame} (marked : s.nextMark ≤ frame.mark) : Keeps s (t.setFrame id frame) := by
  unfold Store.setFrame
  dsimp only
  split
  · exact keeps.placed new marked
  · exact (keeps.placed new marked).spread rooted marked frame.bindings

theorem note (keeps : Keeps s t) (e : Event) : Keeps s (t.note e) :=
  ⟨keeps.room, keeps.marks, keeps.size, keeps.contents, keeps.namespaces, keeps.tables, keeps.frames,
    keeps.fresh⟩

theorem replaceNames (keeps : Keeps s t) {id : Nat} (new : s.frames.size ≤ id)
    (inside : id < t.frames.size) {frame : Frame} (marked : s.nextMark ≤ frame.mark) :
    Keeps s (t.replaceNames id frame) := by
  have before := keeps.fresh id inside new
  have placed := keeps.placed new marked
  have replaced : Keeps s { t with
      tables := t.tables.assign (t.frame id).mark (t.frame id).entries
      namespaces := t.namespaces.erase (t.frame id).mark
      frames := t.frames.setIfInBounds id frame } := by
    refine ⟨keeps.room, keeps.marks, placed.size, keeps.contents, fun mark below => ?_,
      fun mark below => ?_, placed.frames, placed.fresh⟩
    · rw [Bindings.lookup_erase_of_ne _ (below.trans_le before).ne]
      exact keeps.namespaces mark below
    · rw [Bindings.lookup_assign_of_ne _ _ (below.trans_le before).ne]
      exact keeps.tables mark below
  exact (replaced.shareMark before).shareMark marked

/-- Names are bound in frames that were not there before. -/
theorem bind (keeps : Keeps s t) (rooted : Rooted s) {id : Nat} (new : s.frames.size ≤ id)
    (inside : id < t.frames.size) {name : String} {v : Value} (table : NewTable s v)
    {t' : Store} (run : Run.bind id name v t = .ok () t') : Keeps s t' := by
  unfold Run.bind at run
  split at run
  · rename_i names
    subst names
    have step : (ofExcept ((t.frame id).set "__dict__" (t.head v)) >>= fun frame =>
        modify fun s => (s.replaceNames id frame).note (.overwritten id) : Run Unit) t = .ok () t' := run
    cases set : (t.frame id).set "__dict__" (t.head v) with
    | error f =>
        rw [set] at step
        cases step
    | ok frame =>
        rw [set] at step
        cases step
        refine (keeps.replaceNames new inside ?_).note _
        cases v with
        | dict mark entries =>
            cases set
            exact table mark entries rfl
        | _ => cases set
  · rename_i names
    have step : (ofExcept ((t.frame id).set name v) >>= fun frame =>
        modify fun s => s.change id frame (.bound s.writer id name v) : Run Unit) t = .ok () t' := run
    cases set : (t.frame id).set name v with
    | error f =>
        rw [set] at step
        cases step
    | ok frame =>
        rw [set] at step
        cases step
        refine (keeps.setFrame rooted new ?_).note _
        have same : frame.mark = (t.frame id).mark := by
          unfold Frame.set at set
          rw [if_neg names] at set
          split at set
          · rename_i card _
            cases card <;> cases set
            rfl
          · cases set
            rfl
        rw [same]
        exact keeps.fresh id inside new

end Keeps

end Knot
