import Knot.Proofs.Calls.Reached
import Knot.Proofs.Checks.Interleaving
import Knot.Proofs.Effects.Heedless
import Knot.Proofs.Parallel.Aside
import Knot.Proofs.Tracing.Pages

/-!
A check run with a trace and the same one without, side by side. Step by step both do the same to what was
there before; what they make has other marks, since a traced run also makes the summaries that it prints,
and the untraced one prints nothing.
-/

namespace Knot

open Run Renaming

namespace Book

/-- The same run with or without a trace. -/
def tracing (b : Book) (trace : Bool) : Book := { b with trace }

/-- What a run is asked for: a check, a summary, or to be left by a block that has ended. -/
inductive Step where
  | check (c : Check)
  | summary
  | leave (ended : Except Fault Value)

namespace Step

def run (k : Machine) (b : Book) : Step → Run Value
  | check c => b.check k c
  | summary => k.callValue (.method 0 b.run .summary) [] []
  | leave ended => Form.managing (pure b.run) fun _ => Run.ofExcept ended

/-- A step about what was made before. -/
def IsSettled (s : Store) : Step → Prop
  | check c => Settled s c.actual ∧ Settled s c.expected
  | summary => True
  | leave (.ok v) => Settled s v
  | leave (.error f) => Fixed Fault.rename s f

end Step

end Book

/-- What a run ended with, apart from the store. -/
def Run.Ended.outcome {α : Type} : EStateM.Result Stop Store α → Except Stop α
  | .ok a _ => .ok a
  | .error e _ => .error e

/-- What a run ended with, under other marks. -/
def Renaming.outcome (r : Renaming) : Except Stop Value → Except Stop Value
  | .ok v => .ok (v.rename r)
  | .error (.fault f) => .error (.fault (f.rename r))
  | .error .outOfFuel => .error .outOfFuel

/-- A renaming that numbers what a store gives out next as another one does. -/
def Renaming.Numbers (r : Renaming) (s t : Store) : Prop := ∀ i, r.mark (s.nextMark + i) = t.nextMark + i

/-- A renaming that goes on from another one: it leaves alone what an earlier store gave out and does the
same to what was given out since. -/
structure Renaming.Extends (r r' : Renaming) (s₀ s : Store) : Prop where
  fixes : r'.Fixes s₀
  marks : ∀ m < s.nextMark, r'.mark m = r.mark m

theorem Renaming.Extends.before {r r' : Renaming} {s₀ s t : Store} (more : r.Extends r' s₀ t)
    (later : s.nextMark ≤ t.nextMark) : r.Extends r' s₀ s :=
  ⟨more.fixes, fun m below => more.marks m (below.trans_le later)⟩

theorem Fault.rename_of_other {f : Fault} (other : f.isMismatch = false) (r : Renaming) : f.rename r = f := by
  cases f with
  | mismatch => cases other
  | _ => rfl

theorem Store.IsRooted.clear {s : Store} (rooted : s.IsRooted) {mark : Nat} (new : s.nextMark ≤ mark) :
    s.contents.lookup mark = none ∧ s.table? mark = none := by
  let r := Renaming.shift s.nextMark (mark - s.nextMark + 1) rooted.positive
  have fixes : r.Fixes s := ⟨fun _ below => if_pos below, fun _ _ => rfl, fun _ => rfl, rfl⟩
  apply (rooted.image fixes).clear (m := mark) (n := mark + 1) _ mark (Nat.le_refl _) (Nat.lt_succ_self _)
  intro other low high x
  simp only [r, Renaming.shift]
  split <;> omega

/-- Two stores that were left by runs which keep one list and came from an earlier store: nothing was
printed in the first, and but for what was printed the second is an image of it. -/
structure Alongside (s₀ : Store) (list : Nat) (r : Renaming) (s t : Store) : Prop where
  quiet : Store.Aside [list] s₀ s
  loud : Store.Aside [list] s₀ t
  marks : s₀.nextMark ≤ s.nextMark
  marks' : s₀.nextMark ≤ t.nextMark
  silent : s.out = s₀.out
  fixes : r.Fixes s₀
  bounded : ∀ m < s.nextMark, r.mark m < t.nextMark
  image : ∀ r' : Renaming, r.Extends r' s₀ s → Image r' s { t with out := s.out }

namespace Alongside

variable {s₀ s t : Store} {list : Nat} {r : Renaming}

theorem refl (rooted : s₀.IsRooted) (list : Nat) : Alongside s₀ list .same s₀ s₀ where
  quiet := .refl _ _
  loud := .refl _ _
  marks := Nat.le_refl _
  marks' := Nat.le_refl _
  silent := rfl
  fixes := Renaming.same_fixes s₀
  bounded _ below := below
  image _ more := rooted.image more.fixes

variable (alongside : Alongside s₀ list r s t)
include alongside

theorem own_image : Image r s { t with out := s.out } :=
  alongside.image r ⟨alongside.fixes, fun _ _ => rfl⟩

theorem now {v : Value} (settled : Settled s₀ v) : t.now v = (s.now v).rename r := by
  have image := alongside.own_image.now v
  rwa [Store.out_now, settled r alongside.fixes] at image

/-- Settled values are compared alike. -/
theorem equals {a e : Value} (first : Settled s₀ a) (second : Settled s₀ e) :
    t.equals a e = s.equals a e := by
  simp only [Store.equals, alongside.now first, alongside.now second, Value.isArray_rename, Grid.ofValue_rename,
    bind_map_left, Grid.equal_rename (Value.equal_rename r), Value.equal_rename]

theorem shown {v : Value} (settled : Settled s₀ v) :
    (t.view v).showWith t.frame = (s.view v).showWith s.frame := by
  have image := alongside.own_image.showWith_view v
  rwa [Store.out_view, settled r alongside.fixes] at image

theorem failureText {a e : Value} (first : Settled s₀ a) (second : Settled s₀ e) (label : String) :
    t.failureText a e label = s.failureText a e label := by
  simp only [Store.failureText, alongside.shown first, alongside.shown second]

/-- From here on the marks may be numbered anew. -/
theorem renumber (rooted : s₀.IsRooted) : ∃ r', Alongside s₀ list r' s t ∧ r'.Numbers s t ∧
    r.Extends r' s₀ s := by
  have frames : s.frames = s₀.frames := by rw [alongside.quiet.rest]
  have frames' : t.frames = s₀.frames := by rw [alongside.loud.rest]
  have bounded : r.Bounded [] s t := {
    positive := rooted.positive.trans_le alongside.marks
    opened := frames ▸ rooted.opened
    marks := alongside.bounded
    frames := fun id below => by
      rw [frames] at below
      rw [alongside.fixes.frames id below, frames']
      exact below
    owned := nofun
    apart := nofun }
  have agrees : ∀ m < s.nextMark, (r.onward [] s t bounded).mark m = r.mark m :=
    (onward_agrees bounded).marks
  have fixes : (r.onward [] s t bounded).Fixes s₀ := {
    marks := fun m below => (agrees m (below.trans_le alongside.marks)).trans (alongside.fixes.marks m below)
    frames := fun id below =>
      ((onward_agrees bounded).frames id (frames ▸ below)).trans (alongside.fixes.frames id below)
    scopes := alongside.fixes.scopes
    alone := rfl }
  refine ⟨r.onward [] s t bounded, ?_, onward_mark bounded, fixes, agrees⟩
  exact { alongside with
    fixes
    bounded := fun m below => by
      rw [agrees m below]
      exact alongside.bounded m below
    image := fun r' more => alongside.image r'
      ⟨more.fixes, fun m below => (more.marks m below).trans (agrees m below)⟩ }

theorem printed (text : String) : Alongside s₀ list r s (t.printed text) :=
  { alongside with loud := alongside.loud.trans ((t.printed_aside text).mono (by simp)) }

/-- The traced run may make more than the other. -/
theorem skip (numbers : r.Numbers s t) {n m : Nat} (fewer : n ≤ m) :
    Alongside s₀ list r (s.skip n) (t.skip m) where
  quiet := alongside.quiet.trans ((s.skip_aside n).mono (by simp))
  loud := alongside.loud.trans ((t.skip_aside m).mono (by simp))
  marks := alongside.marks.trans (Nat.le_add_right _ _)
  marks' := alongside.marks'.trans (Nat.le_add_right _ _)
  silent := alongside.silent
  fixes := alongside.fixes
  bounded x below := by
    have below : x < s.nextMark + n := below
    change r.mark x < t.nextMark + m
    by_cases old : x < s.nextMark
    · exact (alongside.bounded x old).trans_le (Nat.le_add_right _ _)
    · obtain ⟨i, rfl⟩ := Nat.exists_eq_add_of_le (Nat.le_of_not_lt old)
      rw [numbers i]
      omega
  image r' more := by
    have image := alongside.image r' (more.before (Nat.le_add_right _ _))
    exact ⟨image.frames, image.tallies, image.contents, image.tables, image.given, image.namespaces,
      image.entered, image.session, image.stack, image.out⟩

/-- Both runs record an entry. -/
theorem recorded (known : list < s₀.nextMark) (numbers : r.Numbers s t) (e : Entry) :
    Alongside s₀ list r (s.recorded list e) (t.recorded list e) where
  quiet := alongside.quiet.trans (s.recorded_aside list e)
  loud := alongside.loud.trans (t.recorded_aside list e)
  marks := alongside.marks.trans (Nat.le_succ _)
  marks' := alongside.marks'.trans (Nat.le_succ _)
  silent := alongside.silent
  fixes := alongside.fixes
  bounded := (alongside.skip numbers (Nat.le_refl 1)).bounded
  image r' more := by
    have image := alongside.image r' (more.before (Nat.le_succ _))
    have listed : r'.mark list = list := more.fixes.marks list known
    have new : r'.mark s.nextMark = t.nextMark := (more.marks _ (Nat.lt_succ_self _)).trans (numbers 0)
    have held : t.items list [] = (s.items list []).map (·.rename r') := by
      have held := image.items list []
      rwa [listed] at held
    refine ⟨image.frames, image.tallies, ?_, image.tables, image.given, image.namespaces, image.entered,
      image.session, image.stack, image.out⟩
    have entry : (e.written s.nextMark).rename r' = e.written t.nextMark := by
      simp only [Entry.written, Value.rename, Value.renameAll, new]
    have assigned := assign_of_injective r'.mark_injective (List.map (Value.rename r')) s.contents list
      (s.items list [] ++ [e.written s.nextMark])
    rw [← image.contents, listed, List.map_append, ← held, List.map_singleton, entry] at assigned
    exact assigned

/-- What is new to the earlier store is new to the traced run. -/
theorem clear (rooted : s₀.IsRooted) (known : list < s₀.nextMark) {mark : Nat} (new : s₀.nextMark ≤ mark) :
    t.contents.lookup mark = none ∧ t.table? mark = none := by
  have other : mark ∉ [list] := by simpa using (known.trans_le new).ne'
  rw [alongside.loud.contents mark other, alongside.loud.table?]
  exact rooted.clear new

end Alongside

end Knot
