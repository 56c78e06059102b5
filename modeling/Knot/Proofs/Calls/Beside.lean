import Knot.Proofs.Calls.Binding

/-!
Frames beside those of an image. What is bound in a frame that another store does not have leaves it an image
of that store, so nothing that was there shows it.
-/

namespace Knot

open Run Renaming Store

variable {s t u : Store}

/-! Binding in a frame that another store does not have. -/

theorem Frame.set_mark {frame frame' : Frame} {name : String} {v : Value} (ne : name ≠ "__dict__")
    (set : frame.set name v = .ok frame') : frame'.mark = frame.mark := by
  unfold Frame.set at set
  rw [if_neg ne] at set
  split at set
  · rename_i card _
    cases card <;> cases set
    rfl
  · cases set
    rfl

/-- Binding a name makes another frame and puts it in place, if the name can be bound. -/
theorem Run.bind_cases (id : Nat) (name : String) (v : Value) (t : Store) :
    (∃ f, Run.bind id name v t = .error (.fault f) t) ∨
      ∃ made, (t.frame id).set name (if name = "__dict__" then t.head v else v) = .ok made ∧
        Run.bind id name v t = .ok () (if name = "__dict__" then (t.replaceNames id made).note (.overwritten id)
          else t.change id made (.bound t.writer id name v)) := by
  have step (w : Value) (place : Frame → Store → Store) :
      (∃ f, (ofExcept ((t.frame id).set name w) >>= fun made => modify (place made) : Run Unit) t =
        .error (.fault f) t) ∨
      ∃ made, (t.frame id).set name w = .ok made ∧
        (ofExcept ((t.frame id).set name w) >>= fun made => modify (place made) : Run Unit) t =
          .ok () (place made t) := by
    cases (t.frame id).set name w with
    | ok made => exact .inr ⟨made, rfl, rfl⟩
    | error f => exact .inl ⟨f, rfl⟩
  unfold Run.bind
  by_cases table : name = "__dict__"
  · simp only [table, if_true] at step ⊢
    exact step (t.head v) fun made s => (s.replaceNames id made).note (.overwritten id)
  · simp only [table, if_false]
    exact step v fun made s => s.change id made (.bound s.writer id name v)

/-- A name that cannot be bound leaves everything as it is. -/
theorem Run.passed_error {id : Nat} {name : String} {v : Value} {e : Stop}
    (run : writing .call (Run.bind id name v) t = .error e u) : u = t := by
  unfold writing at run
  rcases Run.bind_cases id name v { t with writer := .call } with ⟨f, ran⟩ | ⟨made, -, ran⟩
  · rw [ran] at run
    cases run
    rfl
  · rw [ran] at run
    cases run

namespace Beside

variable {r : Renaming} {a c d : Store} {id : Nat}

/-- No dictionary stands for a frame beside those of an image. -/
theorem alone (beside : Beside r a c) (inside : id < c.frames.size) (outside : ∀ j, r.frame j ≠ id) :
    c.namespaces.lookup (c.frame id).mark = none := by
  rw [beside.image.namespaces]
  exact lookup_skipped (fun m same => beside.image.frames.apart id inside outside m same.symm) _

/-- A frame beside those of an image can be another one of its mark. -/
theorem placed (beside : Beside r a c) (inside : id < c.frames.size) (outside : ∀ j, r.frame j ≠ id)
    {frame : Frame} (mark : frame.mark = (c.frame id).mark) (journal : List Event) :
    Beside r a { c with frames := c.frames.setIfInBounds id frame, journal } where
  image := by
    refine ⟨⟨fun j => ?_, fun j => ?_, fun j below apart m => ?_⟩, beside.image.tallies, beside.image.contents,
      beside.image.tables, beside.image.given, beside.image.namespaces, beside.image.entered,
      beside.image.session, beside.image.stack, beside.image.out⟩
    · simpa using beside.image.frames.inside j
    · rw [frameAt_set, if_neg fun both => outside j both.1]
      exact beside.image.frames.held j
    · have below' : j < c.frames.size := by simpa using below
      rw [frameAt_set]
      by_cases here : j = id ∧ id < c.frames.size
      · rw [if_pos here, mark]
        exact beside.image.frames.apart id inside outside m
      · rw [if_neg here]
        exact beside.image.frames.apart j below' apart m
  marks := beside.marks
  frames i := by simpa using beside.frames i

/-- A store does not show what is bound in a frame beside those of its image. -/
theorem bound (beside : Beside r a c) (inside : id < c.frames.size) (outside : ∀ j, r.frame j ≠ id)
    {name : String} (ne : name ≠ "__dict__") {v : Value}
    (run : writing .call (Run.bind id name v) c = .ok () d) : Beside r a d ∧ id < d.frames.size := by
  unfold writing at run
  rcases Run.bind_cases id name v { c with writer := .call } with ⟨f, ran⟩ | ⟨made, set, ran⟩
  · rw [ran] at run
    cases run
  · rw [if_neg ne] at set ran
    have mark : made.mark = (c.frame id).mark := Frame.set_mark ne set
    have still : c.namespaces.lookup made.mark = none := mark ▸ beside.alone inside outside
    rw [ran, Store.change_alone (t := { c with writer := .call }) id still] at run
    cases run
    exact ⟨beside.placed inside outside mark _, by simpa using inside⟩

end Beside

/-! A frame more. -/

/-- Behind the first so many numbers, each goes so much further. -/
def beyond (first more x : Nat) : Nat := if x < first then x else x + more

theorem beyond_of_lt {first more x : Nat} (below : x < first) : beyond first more x = x := if_pos below

theorem beyond_strict (first more : Nat) : StrictMono (beyond first more) := by
  intro x y below
  unfold beyond
  split <;> split <;> omega

theorem beyond_apart (first more : Nat) : ∀ m ∈ ([] : List Nat), ∀ x, beyond first more x ≠ m := by
  simp

/-- The renaming that makes room for more marks and more frames behind the first ones. -/
def Renaming.widen (m more n further : Nat) (positive : 0 < m) (opened : 0 < n) : Renaming where
  mark := beyond m more
  frame := beyond n further
  mark_injective := (beyond_strict m more).injective
  frame_strict := beyond_strict n further
  mark_zero := beyond_of_lt positive
  frame_zero := beyond_of_lt opened
  own_apart := beyond_apart m more

/-- A frame beside those of an image. -/
theorem FramesImage.beside {r : Renaming} {fs gs : Array Frame} (image : FramesImage r fs gs) {frame : Frame}
    (outside : ∀ j, r.frame j ≠ gs.size) (apart : ∀ m, frame.mark ≠ r.mark m) :
    FramesImage r fs (gs.push frame) where
  inside j := by
    have inside := image.inside j
    have ne := outside j
    rw [Array.size_push]
    omega
  held j := by
    rw [frameAt_push, if_neg (outside j)]
    exact image.held j
  apart j below other m := by
    rw [Array.size_push] at below
    rw [frameAt_push]
    by_cases last : j = gs.size
    · rw [if_pos last]
      exact apart m
    · rw [if_neg last]
      exact image.apart j (by omega) other m

namespace Store.IsRooted

variable (rooted : t.IsRooted)
include rooted

/-- Nothing was recorded for a list of a mark that was not given out. -/
theorem items_new {mark : Nat} (new : t.nextMark ≤ mark) (vs : List Value) : t.items mark vs = vs := by
  let r := Renaming.widen t.nextMark (mark - t.nextMark + 1) t.frames.size 0 rooted.positive rooted.opened
  have fixes : r.Fixes t := ⟨fun _ below => beyond_of_lt below, fun _ below => beyond_of_lt below, fun _ => rfl, rfl⟩
  have none : t.contents.lookup mark = none := by
    rw [(rooted.image fixes).contents]
    refine lookup_skipped (fun m => ?_) _
    simp only [r, Renaming.widen, beyond]
    split <;> omega
  rw [Store.items, none, Option.getD_none]

theorem skip (n : Nat) : (t.skip n).IsRooted := by
  have later : Later t (t.skip n) := ⟨Nat.le_add_right _ _, Nat.le_refl _, rfl, .still rfl rfl rfl⟩
  refine .of_image (fun r fixes => ?_) (rooted.positive.trans_le later.marks) rooted.opened
  have own := rooted.image (fixes.before later)
  exact ⟨own.frames, own.tallies, own.contents, own.tables, own.given, own.namespaces, own.entered, own.session,
    own.stack, own.out⟩

theorem beside_skip (more : Nat) : ∃ r : Renaming, r.Fixes t ∧ Beside r t (t.skip more) := by
  have fixes : (Renaming.widen t.nextMark more t.frames.size 0 rooted.positive rooted.opened).Fixes t :=
    ⟨fun _ below => beyond_of_lt below, fun _ below => beyond_of_lt below, fun _ => rfl, rfl⟩
  have own := rooted.image fixes
  refine ⟨_, fixes, ⟨own.frames, own.tallies, own.contents, own.tables, own.given, own.namespaces, own.entered,
    own.session, own.stack, own.out⟩, fun i => ?_, fun i => ?_⟩
  · simp only [Renaming.widen, beyond, Store.skip]
    split <;> omega
  · simp only [Renaming.widen, beyond, Store.skip]
    split <;> omega

/-- A new frame is beside the image that a store has in what it is pushed to. -/
theorem beside_opened (more after : Nat) : ∃ r : Renaming, r.Fixes t ∧
    Beside r t ((t.skip more).opened.skip after) ∧ ∀ j, r.frame j ≠ t.frames.size := by
  let r := Renaming.widen t.nextMark (more + 1 + after) t.frames.size 1 rooted.positive rooted.opened
  have fixes : r.Fixes t := ⟨fun _ below => beyond_of_lt below, fun _ below => beyond_of_lt below, fun _ => rfl, rfl⟩
  have own := rooted.image fixes
  have outside (j : Nat) : r.frame j ≠ t.frames.size := by
    simp only [r, Renaming.widen, beyond]
    split <;> omega
  have apart (m : Nat) : t.nextMark + more ≠ r.mark m := by
    simp only [r, Renaming.widen, beyond]
    split <;> omega
  refine ⟨r, fixes, ⟨⟨own.frames.beside outside apart, own.tallies, own.contents, own.tables, own.given,
    own.namespaces, own.entered, own.session, own.stack, own.out⟩, fun i => ?_, fun i => ?_⟩, outside⟩
  · simp only [r, Renaming.widen, beyond, Store.skip, Store.opened, Store.push]
    split <;> omega
  · simp only [r, Renaming.widen, beyond, Store.skip, Store.opened, Store.push, Array.size_push]
    split <;> omega

end Store.IsRooted

/-! Reading members gives out marks, and no more. -/

namespace Run

theorem marked_all_skips {vs ws : List Value} (run : vs.mapM marked t = .ok ws u) :
    (∃ n, u = t.skip n) ∧ ws.length = vs.length := by
  induction vs generalizing t ws with
  | nil =>
      cases run
      exact ⟨⟨0, rfl⟩, rfl⟩
  | cons v vs ih =>
      rw [List.mapM_cons] at run
      obtain ⟨w, t', first, run⟩ := ok_of_bind run
      obtain ⟨ws', t'', rest, run⟩ := ok_of_bind run
      cases run
      obtain ⟨n, rfl⟩ := marked_skips first
      obtain ⟨⟨n', rfl⟩, length⟩ := ih rest
      exact ⟨⟨n + n', Store.skip_skip ..⟩, congrArg Nat.succ length⟩

theorem members_skips {v : Value} {ws : List Value} (run : members v t = .ok ws u) :
    (∃ n, u = t.skip n) ∧ ∃ vs, (t.head v).members = .ok vs ∧ ws.length = vs.length := by
  obtain ⟨v', t', read, run⟩ := ok_of_bind run
  cases read
  obtain ⟨vs, t'', ran, run⟩ := ok_of_bind run
  cases known : (t.head v).members with
  | error e =>
      rw [known] at ran
      cases ran
  | ok vs' =>
      rw [known] at ran
      cases ran
      generalize t.head v = held at run
      cases held with
      | array => exact ⟨(marked_all_skips run).1, _, rfl, (marked_all_skips run).2⟩
      | _ =>
          cases run
          exact ⟨⟨0, rfl⟩, _, rfl, rfl⟩

end Run

theorem Run.after_mapM_one {α β : Type} (f : α → Run β) (a : α) (t : Store) :
    ([a].mapM f).after t = (f a).after t := by
  rw [List.mapM_cons]
  unfold after
  cases ran : f a t with
  | ok b u => rw [bind_of_ok ran]; rfl
  | error e u => rw [bind_of_error ran]

theorem Run.after_mapM_append {α β : Type} {f : α → Run β} {as : List α} {bs : List β}
    (ran : as.mapM f t = .ok bs u) (as' : List α) : ((as ++ as').mapM f).after t = (as'.mapM f).after u := by
  rw [List.mapM_append, after_bind_of_ok ran]
  unfold after
  cases rest : as'.mapM f u with
  | ok bs' w => rw [bind_of_ok rest]; rfl
  | error e w => rw [bind_of_error rest]

end Knot
