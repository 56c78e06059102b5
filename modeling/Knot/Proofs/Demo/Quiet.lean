import Knot.Proofs.Renaming.Run

/-!
Runs that leave no trace. What they make is new, what there was before is as it was, and they end with a
value wherever the stack has room for the calls that they make.
-/

namespace Knot

open Run

namespace Store

/-- A store in which nothing is recorded of marks and frames that it has not given out. -/
structure Fresh (s : Store) : Prop where
  positive : 0 < s.nextMark
  opened : 0 < s.frames.size
  contents : ∀ mark, s.nextMark ≤ mark → s.contents.lookup mark = none
  tables : ∀ mark, s.nextMark ≤ mark → s.tables.lookup mark = none
  namespaces : ∀ mark, s.nextMark ≤ mark → s.namespaces.lookup mark = none
  entered : ∀ mark, s.nextMark ≤ mark → s.entered.lookup mark = none
  given : ∀ id name, s.frames.size ≤ id → s.given.lookup (.environment id, name) = none

/-- A store in which all that an earlier one had given out is as it was. -/
structure Quiet (s t : Store) : Prop where
  rest : t = { s with
    frames := t.frames, nextMark := t.nextMark, contents := t.contents, tallies := t.tallies,
    entered := t.entered, journal := t.journal, deeds := t.deeds }
  marks : s.nextMark ≤ t.nextMark
  size : s.frames.size ≤ t.frames.size
  frames : ∀ id, id < s.frames.size → t.frame id = s.frame id
  contents : ∀ mark, mark < s.nextMark → t.contents.lookup mark = s.contents.lookup mark
  tallies : ∀ mark, mark < s.nextMark → t.tallies.lookup mark = s.tallies.lookup mark
  entered : ∀ mark, mark < s.nextMark → t.entered.lookup mark = s.entered.lookup mark
  fresh : s.Fresh → t.Fresh

/-- The store one call deeper. -/
def inside (s : Store) : Store := atDepth (s.stack.depth + 1) s

variable {s t u : Store}

namespace Quiet

theorem refl (s : Store) : Quiet s s :=
  ⟨rfl, Nat.le_refl _, Nat.le_refl _, fun _ _ => rfl, fun _ _ => rfl, fun _ _ => rfl, fun _ _ => rfl, id⟩

theorem trans (first : Quiet s t) (second : Quiet t u) : Quiet s u where
  rest := by
    have here := second.rest
    rw [first.rest] at here
    exact here
  marks := first.marks.trans second.marks
  size := first.size.trans second.size
  frames id known := (second.frames id (known.trans_le first.size)).trans (first.frames id known)
  contents mark known := (second.contents mark (known.trans_le first.marks)).trans (first.contents mark known)
  tallies mark known := (second.tallies mark (known.trans_le first.marks)).trans (first.tallies mark known)
  entered mark known := (second.entered mark (known.trans_le first.marks)).trans (first.entered mark known)
  fresh new := second.fresh (first.fresh new)

variable (quiet : Quiet s t)
include quiet

theorem stack : t.stack = s.stack := by rw [quiet.rest]

theorem given : t.given = s.given := by rw [quiet.rest]

theorem tables : t.tables = s.tables := by rw [quiet.rest]

theorem namespaces : t.namespaces = s.namespaces := by rw [quiet.rest]

theorem out : t.out = s.out := by rw [quiet.rest]

theorem session : t.session = s.session := by rw [quiet.rest]

end Quiet

theorem Fresh.atDepth (new : s.Fresh) (depth : Nat) : (Run.atDepth depth s).Fresh :=
  ⟨new.positive, new.opened, new.contents, new.tables, new.namespaces, new.entered, new.given⟩

theorem table?_later (quiet : Quiet s t) {mark : Nat} (nothing : s.table? mark = none) :
    t.table? mark = none := by
  unfold table? at nothing ⊢
  rw [quiet.namespaces, quiet.tables]
  split at nothing
  · cases nothing
  · assumption

theorem Fresh.table? (new : s.Fresh) {mark : Nat} (above : s.nextMark ≤ mark) : s.table? mark = none := by
  rw [Store.table?, new.namespaces mark above]
  exact new.tables mark above

/-- What is quiet one call deeper is quiet. -/
theorem Quiet.outward (inner : Quiet s.inside t) : Quiet s (atDepth s.stack.depth t) where
  rest := congrArg (atDepth s.stack.depth) inner.rest
  marks := inner.marks
  size := inner.size
  frames := inner.frames
  contents := inner.contents
  tallies := inner.tallies
  entered := inner.entered
  fresh new := (inner.fresh (new.atDepth _)).atDepth _

/-- A store that is quiet after another one, wherever the stacks are. -/
def Beneath (s t : Store) : Prop := Quiet (atDepth 0 s) (atDepth 0 t)

theorem Quiet.beneath (quiet : Quiet s t) : Beneath s t where
  rest := congrArg (Run.atDepth 0) quiet.rest
  marks := quiet.marks
  size := quiet.size
  frames := quiet.frames
  contents := quiet.contents
  tallies := quiet.tallies
  entered := quiet.entered
  fresh new := (quiet.fresh (new.atDepth s.stack.depth)).atDepth 0

namespace Beneath

theorem inside (s : Store) : Beneath s s.inside := Quiet.refl _

theorem trans (first : Beneath s t) (second : Beneath t u) : Beneath s u := Quiet.trans first second

theorem new (beneath : Beneath s t) (new : s.Fresh) : t.Fresh := (beneath.fresh (new.atDepth 0)).atDepth t.stack.depth

end Beneath

/-- More marks may be given out, and more may be told. -/
theorem Quiet.told (s : Store) (n : Nat) (journal : List Event) (deeds : List Deed) :
    Quiet s { s with nextMark := s.nextMark + n, journal, deeds } where
  rest := rfl
  marks := Nat.le_add_right _ _
  size := Nat.le_refl _
  frames _ _ := rfl
  contents _ _ := rfl
  tallies _ _ := rfl
  entered _ _ := rfl
  fresh new :=
    { new with
      positive := Nat.add_pos_left new.positive n
      contents := fun mark above => new.contents mark (Nat.le_of_add_right_le above)
      tables := fun mark above => new.tables mark (Nat.le_of_add_right_le above)
      namespaces := fun mark above => new.namespaces mark (Nat.le_of_add_right_le above)
      entered := fun mark above => new.entered mark (Nat.le_of_add_right_le above) }

end Store

namespace Run

open Store

variable {α β : Type} {s t : Store} {P Q : α → Store → Prop}

/-- A run that ends with a value and is quiet. -/
def Gives (x : Run α) (s : Store) (P : α → Store → Prop) : Prop :=
  ∃ a t, x s = .ok a t ∧ Quiet s t ∧ P a t

namespace Gives

theorem of_run {x : Run α} {a : α} (run : x s = .ok a t) (quiet : Quiet s t) (holds : P a t) :
    Gives x s P := ⟨a, t, run, quiet, holds⟩

theorem same {x : Run α} {a : α} (run : x s = .ok a s) (holds : P a s) : Gives x s P :=
  ⟨a, s, run, .refl s, holds⟩

theorem pure {a : α} (holds : P a s) : Gives (Pure.pure a) s P := same rfl holds

theorem mono {x : Run α} (gives : Gives x s P) (weaken : ∀ a t, Quiet s t → P a t → Q a t) :
    Gives x s Q := by
  obtain ⟨a, t, run, quiet, holds⟩ := gives
  exact ⟨a, t, run, quiet, weaken a t quiet holds⟩

theorem bind {x : Run α} {f : α → Run β} {R : β → Store → Prop} (first : Gives x s P)
    (second : ∀ a t, Quiet s t → P a t → Gives (f a) t R) : Gives (x >>= f) s R := by
  obtain ⟨a, t, run, quiet, holds⟩ := first
  obtain ⟨b, u, run', quiet', holds'⟩ := second a t quiet holds
  exact ⟨b, u, (bind_of_ok run).trans run', quiet.trans quiet', holds'⟩

theorem map {x : Run α} {f : α → β} {R : β → Store → Prop} (gives : Gives x s P)
    (holds : ∀ a t, Quiet s t → P a t → R (f a) t) : Gives (f <$> x) s R := by
  rw [map_eq_pure_bind]
  exact gives.bind fun a t quiet held => .pure (holds a t quiet held)

end Gives

theorem fresh_gives (s : Store) :
    Gives fresh s fun mark t => mark = s.nextMark ∧ t.nextMark = s.nextMark + 1 :=
  .of_run rfl (Quiet.told s 1 s.journal s.deeds) ⟨rfl, rfl⟩

theorem tell_gives (d : Deed) (s : Store) : Gives (tell d) s fun _ _ => True :=
  .of_run rfl (Quiet.told s 0 s.journal (d :: s.deeds)) trivial

end Run

/-! Calls. -/

/-- A machine with fuel, and a stack with room, for some levels of calls. -/
structure Affords (levels : Nat) (k : Machine) (s : Store) : Prop where
  fuel : ∃ n, levels ≤ n ∧ k = .ofFuel n
  room : ∃ room, s.stack.room = some room ∧ s.stack.depth + levels ≤ min room s.stack.limit

namespace Affords

open Store

variable {levels more : Nat} {k : Machine} {s t : Store}

theorem less (affords : Affords more k s) (less : levels ≤ more) : Affords levels k s := by
  obtain ⟨⟨n, fuel, same⟩, room, given, below⟩ := affords
  exact ⟨⟨n, by omega, same⟩, room, given, by omega⟩

theorem later (affords : Affords levels k s) (quiet : Quiet s t) : Affords levels k t := by
  obtain ⟨fuel, room⟩ := affords
  rw [← quiet.stack] at room
  exact ⟨fuel, room⟩

/-- One level is used up by each call and each evaluation. -/
theorem one (affords : Affords (levels + 1) k s) : ∃ k', Affords levels k' s.inside ∧
    s.stack.room.isNone = false ∧ s.stack.full = false ∧
    (∀ f args named, k.call f args named = deeper (Machine.callValue k' f args named)) ∧
    ∀ v env, k.evaluate v env = deeper (Calculus.eval k' v env) := by
  obtain ⟨⟨n, fuel, rfl⟩, room, given, below⟩ := affords
  cases n with
  | zero => omega
  | succ n =>
      have full : s.stack.full = false := by
        rw [Stack.full, given]
        exact decide_eq_false (by omega)
      refine ⟨.ofFuel n, ⟨⟨n, by omega, rfl⟩, room, given, ?_⟩, by rw [given]; rfl, full,
        fun _ _ _ => rfl, fun _ _ => rfl⟩
      change s.stack.depth + 1 + levels ≤ _
      rw [Nat.add_assoc, Nat.add_comm 1]
      exact below

end Affords

namespace Run

open Store

variable {α : Type} {s : Store} {k : Machine} {levels : Nat} {P : Value → Store → Prop}

/-- What holds whatever the depth of the stack is. -/
def Steady (P : α → Store → Prop) : Prop := ∀ a t depth, P a t → P a (atDepth depth t)

section

variable {x : Run α} (counted : s.stack.room.isNone = false) (room : s.stack.full = false)
include counted room

theorem deeper_of_ok {a : α} {t : Store} (run : x s.inside = .ok a t) :
    deeper x s = .ok a (atDepth s.stack.depth t) := by
  have inner : x (atDepth (s.stack.depth + 1) s) = .ok a t := run
  unfold deeper
  rw [counted, room, if_neg Bool.false_ne_true, if_neg Bool.false_ne_true]
  simp only [inner]

theorem deeper_of_error {e : Stop} {t : Store} (run : x s.inside = .error e t) :
    deeper x s = .error e (atDepth s.stack.depth t) := by
  have inner : x (atDepth (s.stack.depth + 1) s) = .error e t := run
  unfold deeper
  rw [counted, room, if_neg Bool.false_ne_true, if_neg Bool.false_ne_true]
  simp only [inner]

theorem deeper_gives {P : α → Store → Prop} (steady : Steady P) (gives : Gives x s.inside P) :
    Gives (deeper x) s P := by
  obtain ⟨a, t, run, quiet, holds⟩ := gives
  exact ⟨a, _, deeper_of_ok counted room run, quiet.outward, steady a t _ holds⟩

end

/-- A call gives what the value that is called gives one level deeper. -/
theorem call_gives {f : Value} {args : List Value} {named : Named} (affords : Affords (levels + 1) k s)
    (steady : Steady P)
    (gives : ∀ k', Affords levels k' s.inside → Gives (Machine.callValue k' f args named) s.inside P) :
    Gives (k.call f args named) s P := by
  obtain ⟨k', inner, counted, room, calls, -⟩ := affords.one
  rw [calls]
  exact deeper_gives counted room steady (gives k' inner)

theorem evaluate_gives {v env : Value} (affords : Affords (levels + 1) k s) (steady : Steady P)
    (gives : ∀ k', Affords levels k' s.inside → Gives (Calculus.eval k' v env) s.inside P) :
    Gives (k.evaluate v env) s P := by
  obtain ⟨k', inner, counted, room, -, evaluates⟩ := affords.one
  rw [evaluates]
  exact deeper_gives counted room steady (gives k' inner)

end Run

end Knot
