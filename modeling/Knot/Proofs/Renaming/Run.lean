import Knot.Evaluate
import Knot.Proofs.Journal.Replay
import Knot.Proofs.Renaming.Store

/-!
Runs on images of stores. A run that makes the same steps in a store and in an image of it ends alike:
with renamed results, the same faults and an image of the store that it left, if the renaming numbers
what the run makes as the image does.
-/

namespace Knot

/-- A fault without the values that it was raised about. -/
def Fault.bare : Fault → Fault
  | .mismatch _ _ _ shown => .mismatch .none .none .none shown
  | f => f

theorem Fault.kind_bare (f : Fault) : f.bare.kind = f.kind := by
  cases f <;> rfl

/-- A fault about renamed values. -/
def Fault.rename (r : Renaming) : Fault → Fault
  | .mismatch actual expected label shown =>
      .mismatch (actual.rename r) (expected.rename r) (label.rename r) shown
  | f => f

@[simp]
theorem Fault.bare_rename (r : Renaming) (f : Fault) : (f.rename r).bare = f.bare := by
  cases f <;> rfl

def Stop.bare : Stop → Stop
  | .fault f => .fault f.bare
  | .outOfFuel => .outOfFuel

namespace Renaming

variable (r : Renaming)

/-- Nothing that was made has been taken back, the stack has the room that it had, and the journal
tells what was done. -/
structure Later (t t' : Store) : Prop where
  marks : t.nextMark ≤ t'.nextMark
  frames : t.frames.size ≤ t'.frames.size
  room : t'.stack.room = t.stack.room
  told : Told t.frames.size t t'

/-- What is made between two stores is numbered as an image numbers what it makes. -/
structure Allots (t t' s : Store) : Prop where
  marks : ∀ i, t.nextMark + i < t'.nextMark → r.mark (t.nextMark + i) = s.nextMark + i
  frames : ∀ i, t.frames.size + i < t'.frames.size → r.frame (t.frames.size + i) = s.frames.size + i

/-- An image that went on as the store itself did, and left frames and tallies of its own alone. -/
structure Follows (t t' s s' : Store) : Prop where
  image : Image r t' s'
  marks : s'.nextMark + t.nextMark = s.nextMark + t'.nextMark
  frames : s'.frames.size + t.frames.size = s.frames.size + t'.frames.size
  kept : Kept r s.frames s'.frames
  tallies : ∀ m ∈ r.own, s'.tallies.lookup m = s.tallies.lookup m

variable {r} {t t' t'' s s' s'' : Store}

theorem Later.refl (t : Store) : Later t t := ⟨Nat.le_refl _, Nat.le_refl _, rfl, .refl t⟩

theorem Later.trans (first : Later t t') (second : Later t' t'') : Later t t'' :=
  ⟨first.marks.trans second.marks, first.frames.trans second.frames, second.room.trans first.room,
    first.told.trans (second.told.mono first.frames)⟩

theorem Allots.first (allots : Allots r t t'' s) (second : Later t' t'') : Allots r t t' s where
  marks i below := allots.marks i (below.trans_le second.marks)
  frames i below := allots.frames i (below.trans_le second.frames)

theorem Allots.second (allots : Allots r t t'' s) (first : Later t t') (follows : Follows r t t' s s') :
    Allots r t' t'' s' where
  marks i below := by
    obtain ⟨n, made⟩ := Nat.exists_eq_add_of_le first.marks
    have marks := follows.marks
    have numbered := allots.marks (n + i) (by omega)
    rw [made, Nat.add_assoc, numbered]
    omega
  frames i below := by
    obtain ⟨n, made⟩ := Nat.exists_eq_add_of_le first.frames
    have frames := follows.frames
    have numbered := allots.frames (n + i) (by omega)
    rw [made, Nat.add_assoc, numbered]
    omega

theorem Follows.trans (first : Follows r t t' s s') (second : Follows r t' t'' s' s'') :
    Follows r t t'' s s'' where
  image := second.image
  marks := by
    have := first.marks
    have := second.marks
    omega
  frames := by
    have := first.frames
    have := second.frames
    omega
  kept := first.kept.trans second.kept
  tallies m own := (second.tallies m own).trans (first.tallies m own)

end Renaming

open Renaming

namespace Run

variable {α β γ δ : Type}

/-- The store that a run leaves. -/
def after (x : Run α) (s : Store) : Store :=
  match x s with
  | .ok _ s' | .error _ s' => s'

/-- A run that takes nothing back. -/
def Grows (x : Run α) : Prop := ∀ s, Later s (x.after s)

theorem after_of_ok {x : Run α} {a : α} {s s' : Store} (run : x s = .ok a s') : x.after s = s' := by
  simp [after, run]

theorem after_of_error {x : Run α} {e : Stop} {s s' : Store} (run : x s = .error e s') :
    x.after s = s' := by
  simp [after, run]

theorem bind_of_ok {x : Run α} {h : α → Run γ} {a : α} {s s' : Store} (run : x s = .ok a s') :
    (x >>= h) s = h a s' := by
  change EStateM.bind x h s = _
  rw [EStateM.bind, run]

theorem bind_of_error {x : Run α} {h : α → Run γ} {e : Stop} {s s' : Store}
    (run : x s = .error e s') : (x >>= h) s = .error e s' := by
  change EStateM.bind x h s = _
  rw [EStateM.bind, run]

theorem get_bind (h : Store → Run γ) (s : Store) : ((MonadState.get : Run Store) >>= h) s = h s s := rfl

theorem recover_of_ok {x : Run α} {h : Fault → Run α} {a : α} {s s' : Store}
    (run : x s = .ok a s') : recover x h s = .ok a s' := by
  simp [recover, run]

theorem recover_of_fault {x : Run α} {h : Fault → Run α} {f : Fault} {s s' : Store}
    (run : x s = .error (.fault f) s') : recover x h s = h f s' := by
  simp [recover, run]

theorem recover_of_outOfFuel {x : Run α} {h : Fault → Run α} {s s' : Store}
    (run : x s = .error .outOfFuel s') : recover x h s = .error .outOfFuel s' := by
  simp [recover, run]

theorem map_of_ok {x : Run α} {a : α} {s s' : Store} (f : α → β) (run : x s = .ok a s') :
    (f <$> x) s = .ok (f a) s' := by
  rw [map_eq_pure_bind, bind_of_ok run]
  rfl

theorem map_of_error {x : Run α} {e : Stop} {s s' : Store} (f : α → β) (run : x s = .error e s') :
    (f <$> x) s = .error e s' := by
  rw [map_eq_pure_bind, bind_of_error run]

theorem discard_of_ok {x : Run α} {a : α} {s s' : Store} (run : x s = .ok a s') :
    Functor.discard x s = .ok () s' := map_of_ok _ run

theorem discard_of_error {x : Run α} {e : Stop} {s s' : Store} (run : x s = .error e s') :
    Functor.discard x s = .error e s' := map_of_error _ run

namespace Grows

theorem pure (a : α) : Grows (Pure.pure a : Run α) := fun s => .refl s

theorem stop (e : Stop) : Grows (throw e : Run α) := fun s => .refl s

theorem ofExcept (x : Except Fault α) : Grows (Run.ofExcept x) := by
  cases x with
  | ok a => exact pure a
  | error e => exact stop _

theorem bind {x : Run α} {h : α → Run γ} (first : Grows x) (second : ∀ a, Grows (h a)) :
    Grows (x >>= h) := by
  intro s
  cases run : x s with
  | ok a s' =>
      have whole : (x >>= h).after s = (h a).after s' := by simp [after, bind_of_ok run]
      rw [whole]
      exact (after_of_ok run ▸ first s).trans (second a s')
  | error e s' =>
      rw [after_of_error (bind_of_error run)]
      exact after_of_error run ▸ first s

theorem recover {x : Run α} {h : Fault → Run α} (first : Grows x) (second : ∀ f, Grows (h f)) :
    Grows (Run.recover x h) := by
  intro s
  cases run : x s with
  | ok a s' =>
      rw [after_of_ok (recover_of_ok run)]
      exact after_of_ok run ▸ first s
  | error e s' =>
      have here : Later s s' := after_of_error run ▸ first s
      cases e with
      | outOfFuel => exact (after_of_error (recover_of_outOfFuel run)).symm ▸ here
      | fault f =>
          have whole : (Run.recover x h).after s = (h f).after s' := by
            simp [after, recover_of_fault run]
          rw [whole]
          exact here.trans (second f s')

theorem update {f : Store → Store} (later : ∀ s, Later s (f s)) : Grows (modify f : Run Unit) := later

theorem get {h : Store → Run γ} (second : ∀ s, Grows (h s)) : Grows ((MonadState.get : Run Store) >>= h) :=
  fun s => second s s

end Grows

/-- A run that, in an image, goes as another one goes in the store itself; `f` renames the result. -/
structure Equi (r : Renaming) (f : α → β) (x : Run α) (y : Run β) : Prop where
  grows : Grows x
  ok : ∀ {t s}, Image r t s → ∀ {a t'}, x t = .ok a t' → Allots r t t' s →
    ∃ s', y s = .ok (f a) s' ∧ Follows r t t' s s'
  error : ∀ {t s}, Image r t s → ∀ {e t'}, x t = .error e t' → Allots r t t' s →
    ∃ e' s', y s = .error e' s' ∧ e'.bare = e.bare ∧ Follows r t t' s s'

namespace Equi

variable {r : Renaming} {f : α → β} {g : γ → δ}

theorem follows_refl {t s : Store} (image : Image r t s) : Follows r t t s s :=
  ⟨image, rfl, rfl, Kept.refl _, fun _ _ => rfl⟩

theorem pure (a : α) : Equi r f (Pure.pure a) (Pure.pure (f a)) where
  grows := .pure a
  ok image _ _ run _ := by
    cases run
    exact ⟨_, rfl, follows_refl image⟩
  error _ _ _ run _ := nomatch run

theorem stop {e e' : Stop} (bare : e'.bare = e.bare) : Equi r f (throw e) (throw e') where
  grows := .stop e
  ok _ _ _ run _ := nomatch run
  error image _ _ run _ := by
    cases run
    exact ⟨_, _, rfl, bare, follows_refl image⟩

theorem fault {e e' : Fault} (bare : e'.bare = e.bare) : Equi r f (Run.fault e) (Run.fault e') :=
  stop (congrArg Stop.fault bare)

theorem ofExcept {x : Except Fault α} {y : Except Fault β} (same : y = f <$> x) :
    Equi r f (Run.ofExcept x) (Run.ofExcept y) := by
  subst same
  cases x with
  | ok a => exact pure a
  | error e => exact fault rfl

theorem bind {x : Run α} {y : Run β} {h : α → Run γ} {k : β → Run δ} (first : Equi r f x y)
    (second : ∀ a, Equi r g (h a) (k (f a))) : Equi r g (x >>= h) (y >>= k) where
  grows := first.grows.bind fun a => (second a).grows
  ok {t s} image {c t''} run allots := by
    cases ran : x t with
    | error e t' => simp [bind_of_error ran] at run
    | ok a t' =>
        rw [bind_of_ok ran] at run
        have later : Later t t' := after_of_ok ran ▸ first.grows t
        have later' : Later t' t'' := after_of_ok run ▸ (second a).grows t'
        obtain ⟨s', ran', follows⟩ := first.ok image ran (allots.first later')
        obtain ⟨s'', run', follows'⟩ :=
          (second a).ok follows.image run (allots.second later follows)
        exact ⟨s'', by rw [bind_of_ok ran', run'], follows.trans follows'⟩
  error {t s} image {e t''} run allots := by
    cases ran : x t with
    | error e' t' =>
        rw [bind_of_error ran] at run
        cases run
        obtain ⟨e', s', ran', bare, follows⟩ := first.error image ran allots
        exact ⟨e', s', bind_of_error ran', bare, follows⟩
    | ok a t' =>
        rw [bind_of_ok ran] at run
        have later : Later t t' := after_of_ok ran ▸ first.grows t
        have later' : Later t' t'' := after_of_error run ▸ (second a).grows t'
        obtain ⟨s', ran', follows⟩ := first.ok image ran (allots.first later')
        obtain ⟨e', s'', run', bare, follows'⟩ :=
          (second a).error follows.image run (allots.second later follows)
        exact ⟨e', s'', by rw [bind_of_ok ran', run'], bare, follows.trans follows'⟩

theorem get {h : Store → Run γ} {k : Store → Run δ} (grows : ∀ t, Grows (h t))
    (second : ∀ t s, Image r t s → Equi r g (h t) (k s)) :
    Equi r g ((MonadState.get : Run Store) >>= h) ((MonadState.get : Run Store) >>= k) where
  grows := .get grows
  ok {t s} image _ _ run allots := (second t s image).ok image run allots
  error {t s} image _ _ run allots := (second t s image).error image run allots

theorem update {h k : Store → Store} (later : ∀ t, Later t (h t))
    (step : ∀ t s, Image r t s → Allots r t (h t) s → Follows r t (h t) s (k s)) :
    Equi r id (modify h : Run Unit) (modify k) where
  grows := .update later
  ok {t s} image _ _ run allots := by
    cases run
    exact ⟨k s, rfl, step t s image allots⟩
  error _ _ _ run _ := nomatch run

/-- What is read of the store, and then used. -/
theorem read {p : Store → Except Fault α} {q : Store → Except Fault β} {h : α → Run γ} {k : β → Run δ}
    (same : ∀ t s, Image r t s → q s = f <$> p t) (second : ∀ a, Equi r g (h a) (k (f a))) :
    Equi r g (do let s ← MonadState.get; let a ← Run.ofExcept (p s); h a)
      (do let s ← MonadState.get; let b ← Run.ofExcept (q s); k b) :=
  get (fun _ => .bind (.ofExcept _) fun a => (second a).grows) fun t s image =>
    (ofExcept (same t s image)).bind second

/-- A change of the store that depends on what is read of it. -/
theorem write {p : Store → Except Fault α} {q : Store → Except Fault β} {h : α → Store → Store}
    {k : β → Store → Store} (same : ∀ t s, Image r t s → q s = f <$> p t)
    (later : ∀ t a, p t = .ok a → Later t (h a t))
    (follows : ∀ a t s, Image r t s → Follows r t (h a t) s (k (f a) s)) :
    Equi r (fun _ : Unit => ())
      (do let s ← MonadState.get; let a ← Run.ofExcept (p s); modify (h a))
      (do let s ← MonadState.get; let b ← Run.ofExcept (q s); modify (k b)) := by
  have left (t : Store) :
      (do let s ← MonadState.get; let a ← Run.ofExcept (p s); modify (h a) : Run Unit) t =
        (Run.ofExcept (p t) >>= fun a => modify (h a)) t := rfl
  have right (s : Store) :
      (do let s ← MonadState.get; let b ← Run.ofExcept (q s); modify (k b) : Run Unit) s =
        (Run.ofExcept (q s) >>= fun b => modify (k b)) s := rfl
  refine ⟨fun t => ?_, fun {t s} image a t' run allots => ?_, fun {t s} image e t' run allots => ?_⟩
  · simp only [after, left]
    cases read : p t with
    | ok a => exact later t a read
    | error e => exact .refl t
  · rw [left] at run
    rw [right, same t s image]
    cases read : p t with
    | ok a =>
        rw [read] at run
        cases run
        exact ⟨_, rfl, follows a t s image⟩
    | error e =>
        rw [read] at run
        exact nomatch run
  · rw [left] at run
    rw [right, same t s image]
    cases read : p t with
    | ok a =>
        rw [read] at run
        exact nomatch run
    | error e =>
        rw [read] at run
        cases run
        exact ⟨_, _, rfl, rfl, follows_refl image⟩

theorem map {h : β → δ} {l : α → γ} {x : Run α} {y : Run β} (first : Equi r f x y)
    (same : ∀ a, h (f a) = g (l a)) : Equi r g (l <$> x) (h <$> y) := by
  have mapped : Equi r g (x >>= fun a => Pure.pure (l a)) (y >>= fun b => Pure.pure (h b)) :=
    first.bind fun a => same a ▸ pure (l a)
  simpa only [bind_pure_comp] using mapped

theorem recover {x : Run α} {y : Run β} {h : Fault → Run α} {k : Fault → Run β}
    (first : Equi r f x y) (second : ∀ e e' : Fault, e'.bare = e.bare → Equi r f (h e) (k e')) :
    Equi r f (Run.recover x h) (Run.recover y k) where
  grows := first.grows.recover fun e => (second e e rfl).grows
  ok {t s} image {c t''} run allots := by
    cases ran : x t with
    | ok a t' =>
        rw [recover_of_ok ran] at run
        cases run
        obtain ⟨s', ran', follows⟩ := first.ok image ran allots
        exact ⟨s', recover_of_ok ran', follows⟩
    | error e t' =>
        cases e with
        | outOfFuel => simp [recover_of_outOfFuel ran] at run
        | fault e =>
            rw [recover_of_fault ran] at run
            have later : Later t t' := after_of_error ran ▸ first.grows t
            have later' : Later t' t'' := after_of_ok run ▸ (second e e rfl).grows t'
            obtain ⟨e', s', ran', bare, follows⟩ := first.error image ran (allots.first later')
            cases e' with
            | outOfFuel => simp [Stop.bare] at bare
            | fault e' =>
                obtain ⟨s'', run', follows'⟩ := (second e e' (by simpa [Stop.bare] using bare)).ok
                  follows.image run (allots.second later follows)
                exact ⟨s'', by rw [recover_of_fault ran', run'], follows.trans follows'⟩
  error {t s} image {c t''} run allots := by
    cases ran : x t with
    | ok a t' => simp [recover_of_ok ran] at run
    | error e t' =>
        cases e with
        | outOfFuel =>
            rw [recover_of_outOfFuel ran] at run
            cases run
            obtain ⟨e', s', ran', bare, follows⟩ := first.error image ran allots
            cases e' with
            | outOfFuel => exact ⟨_, s', recover_of_outOfFuel ran', rfl, follows⟩
            | fault => simp [Stop.bare] at bare
        | fault e =>
            rw [recover_of_fault ran] at run
            have later : Later t t' := after_of_error ran ▸ first.grows t
            have later' : Later t' t'' := after_of_error run ▸ (second e e rfl).grows t'
            obtain ⟨e', s', ran', bare, follows⟩ := first.error image ran (allots.first later')
            cases e' with
            | outOfFuel => simp [Stop.bare] at bare
            | fault e' =>
                obtain ⟨e'', s'', run', bare', follows'⟩ :=
                  (second e e' (by simpa [Stop.bare] using bare)).error follows.image run
                    (allots.second later follows)
                exact ⟨e'', s'', by rw [recover_of_fault ran', run'], bare', follows.trans follows'⟩

theorem mapM {h : α → Run γ} {k : β → Run δ} (step : ∀ a, Equi r g (h a) (k (f a))) (xs : List α) :
    Equi r (List.map g) (xs.mapM h) ((xs.map f).mapM k) := by
  induction xs with
  | nil => exact pure (f := List.map g) []
  | cons x xs ih =>
      simp only [List.map_cons, List.mapM_cons]
      exact (step x).bind fun c => ih.bind fun cs => pure (f := List.map g) (c :: cs)

/-- A mark that is made is numbered as the image numbers its own. -/
theorem fresh : Equi r r.mark Run.fresh Run.fresh where
  grows _ := ⟨Nat.le_succ _, Nat.le_refl _, rfl, .still rfl rfl rfl⟩
  ok {t s} image _ _ run allots := by
    cases run
    have numbered : r.mark t.nextMark = s.nextMark := by simpa using allots.marks 0 (by simp)
    refine ⟨{ s with nextMark := s.nextMark + 1 }, ?_, ?_⟩
    · rw [numbered]
      rfl
    · exact ⟨⟨image.frames, image.tallies, image.contents, image.tables, image.given,
        image.namespaces, image.entered, image.session, image.stack, image.out⟩,
        by simp only []; omega, rfl, Kept.refl _, fun _ _ => rfl⟩
  error _ _ _ run _ := nomatch run

end Equi

end Run

end Knot
