import Knot.Proofs.Parallel.Stage

/-!
Runs that end alike from a stage on. Either the second run has fuel to spare, and ends as the first one
does if that ends; or the first one has, and the other way round. What goes alike under every renaming
does so from any stage; beyond that, the second run may take steps of its own.
-/

namespace Knot

open Run Renaming

/-- Faults that show the same or, where it does not matter what these show, are both about a broken
contract. -/
inductive Fault.Like (loose : Prop) (f f' : Fault) : Prop
  | bare : f'.bare = f.bare → Like loose f f'
  | contract {cause cause' : ContractFault} : loose → f = .contract cause → f' = .contract cause' →
      Like loose f f'

namespace Fault.Like

variable {loose : Prop} {f f' : Fault}

theorem kind (like : Like loose f f') : f'.kind = f.kind := by
  cases like with
  | bare same => rw [← Fault.kind_bare f', same, Fault.kind_bare]
  | contract _ first second => rw [first, second]; rfl

theorem bare_of_strict (like : Like loose f f') (strict : ¬loose) : f'.bare = f.bare := by
  cases like with
  | bare same => exact same
  | contract holds => exact absurd holds strict

end Fault.Like

/-- Which of two runs has to end where the other one does. -/
inductive Way where
  | forth | back
  deriving DecidableEq

namespace Twins

variable (T : Twins) (way : Way)

/-- Ends of two runs that were at a stage before: both have a result or both a fault, at a later stage,
or the one that ends first is out of fuel. -/
inductive Ends {α β : Type} (w : Stage) (R : Stage → α → β → Prop) :
    EStateM.Result Stop Store α → EStateM.Result Stop Store β → Prop
  | ok {names : Renaming} {t s : Store} {a : α} {b : β} : w.Leads ⟨names, t, s⟩ →
      T.Sound ⟨names, t, s⟩ → R ⟨names, t, s⟩ a b → Ends w R (.ok a t) (.ok b s)
  | fault {names : Renaming} {t s : Store} {f f' : Fault} : w.Leads ⟨names, t, s⟩ →
      T.Sound ⟨names, t, s⟩ → Fault.Like T.loose f f' → Ends w R (.error (.fault f) t) (.error (.fault f') s)
  | forth {t : Store} {y : EStateM.Result Stop Store β} : way = .forth →
      Ends w R (.error .outOfFuel t) y
  | back {x : EStateM.Result Stop Store α} {s : Store} : way = .back →
      Ends w R x (.error .outOfFuel s)

/-- Runs that end alike from a stage on. -/
def Parallel {α β : Type} (w : Stage) (R : Stage → α → β → Prop) (x : Run α) (y : Run β) : Prop :=
  T.Sound w → T.Ends way w R (x w.left) (y w.right)

variable {T way} {α β γ δ : Type} {w w' : Stage} {R : Stage → α → β → Prop} {Q : Stage → γ → δ → Prop}

theorem Ends.before {x : EStateM.Result Stop Store α} {y : EStateM.Result Stop Store β}
    (ends : T.Ends way w' R x y) (leads : w.Leads w') : T.Ends way w R x y := by
  cases ends with
  | ok rest sound rel => exact .ok (leads.trans rest) sound rel
  | fault rest sound like => exact .fault (leads.trans rest) sound like
  | forth forth => exact .forth forth
  | back back => exact .back back

/-! What is made or bound under another name in an image stands for what it is an image of. -/

namespace Sound

/-- Runs that follow each other lead to a stage that is as sound. -/
theorem follows (sound : T.Sound w) {t s : Store} (went : Went 0 w.left t)
    (follows : Follows w.names w.left t w.right s) (rooted : ∀ r : Renaming, r.Fixes t → Image r t t) :
    T.Sound ⟨w.names, t, s⟩ ∧ w.Leads ⟨w.names, t, s⟩ := by
  have marks := follows.marks
  have frames := follows.frames
  have marksGrow := went.marks
  have framesGrow := went.frames
  have own : w.names.own = T.own := sound.own
  have leads : w.Leads ⟨w.names, t, s⟩ :=
    ⟨sound.rooted, .refl .., went.marks, went.frames, by dsimp only; omega, sound.refl.newMarks,
      sound.refl.newFrames, follows.kept⟩
  have settled : Rooted t :=
    ⟨rooted, sound.rooted.positive.trans_le went.marks, sound.rooted.opened.trans_le went.frames,
      went.room.trans sound.rooted.room⟩
  have below : ∀ m < t.nextMark, w.names.mark m < s.nextMark := fun m inside => by
    by_cases old : m < w.left.nextMark
    · have := sound.below m old
      omega
    · rw [sound.mark_of_le (Nat.le_of_not_lt old)]
      omega
  refine ⟨⟨sound.beside.after went follows, settled, below, fun id inside => ?_, own,
    fun m member => (sound.owned m member).trans_le leads.given,
    fun m member => sound.keeps_later leads member, fun v scope' seen =>
      (sound.sees v scope' seen).later leads,
    T.holds_same (fun m member => follows.tallies m (own ▸ member)) sound.holds⟩, leads⟩
  dsimp only at inside
  by_cases image : ∃ j, w.names.frame j = id
  · obtain ⟨j, rfl⟩ := image
    rw [follows.image.frame, Frame.rename_mark]
    exact below _ (settled.frame_mark_lt j)
  · have outside : ∀ j, w.names.frame j ≠ id := fun j same => image ⟨j, same⟩
    have old : id < w.right.frames.size := by
      by_contra new
      have above : w.left.frames.size ≤ w.left.frames.size + (id - w.right.frames.size) :=
        Nat.le_add_right _ _
      refine outside _ ((sound.frame_of_le above).trans ?_)
      omega
    have same : s.frame id = w.right.frame id := follows.kept.same id old outside
    rw [same]
    exact (sound.marked id old).trans_le leads.given

end Sound

namespace Parallel

/-- What goes alike under every renaming goes alike from any stage on. -/
theorem of_alike {F : Renaming → α → α} {x : Run α} {y : Renaming → Run α}
    (alike : ∀ r, Alike r (F r) x (y r)) (self : ∀ r : Renaming, r.Fixes w.left → y r = x) :
    T.Parallel way w (Via F) x (y w.names) := by
  intro sound
  have allots (t : Store) : Allots w.names w.left t w.right :=
    ⟨fun i _ => sound.beside.marks i, fun i _ => sound.beside.frames i⟩
  have before {t : Store} {r : Renaming} (went : Went 0 w.left t) (fixes : r.Fixes t) : r.Fixes w.left :=
    ⟨fun m below => fixes.marks m (below.trans_le went.marks),
      fun id below => fixes.frames id (below.trans_le went.frames), fixes.scopes, fixes.alone⟩
  cases run : x w.left with
  | ok a t =>
      have went : Went 0 w.left t := after_of_ok run ▸ (alike w.names).went w.left (Nat.zero_le _)
      obtain ⟨s, run', follows⟩ := (alike w.names).ok sound.beside.image run (allots t)
      have own (r : Renaming) (fixes : r.Fixes t) : Image r t t ∧ F r a = a := by
        obtain ⟨t', again, followed⟩ := (alike r).ok (sound.rooted.image r (before went fixes)) run
          fixes.allots
        rw [self r (before went fixes), run] at again
        injection again with values stores
        exact ⟨stores ▸ followed.image, values.symm⟩
      obtain ⟨sound', leads⟩ := sound.follows went follows fun r fixes => (own r fixes).1
      rw [run']
      exact .ok leads sound' ⟨fun r fixes => (own r fixes).2, rfl⟩
  | error e t =>
      have went : Went 0 w.left t := after_of_error run ▸ (alike w.names).went w.left (Nat.zero_le _)
      obtain ⟨e', s, run', bare, follows⟩ := (alike w.names).error sound.beside.image run (allots t)
      have own (r : Renaming) (fixes : r.Fixes t) : Image r t t := by
        obtain ⟨e', t', again, -, followed⟩ := (alike r).error
          (sound.rooted.image r (before went fixes)) run fixes.allots
        rw [self r (before went fixes), run] at again
        cases again
        exact followed.image
      obtain ⟨sound', leads⟩ := sound.follows went follows own
      rw [run']
      cases e with
      | outOfFuel =>
          cases e' with
          | outOfFuel =>
              cases way with
              | forth => exact .forth rfl
              | back => exact .back rfl
          | fault f => cases bare
      | fault f =>
          cases e' with
          | outOfFuel => cases bare
          | fault f' => exact .fault leads sound' (.bare (by injection bare))

theorem of_equi {F : Renaming → α → α} {x : Run α} {y : Renaming → Run α}
    (equi : ∀ r, Equi r (F r) x (y r)) (self : ∀ r : Renaming, r.Fixes w.left → y r = x) :
    T.Parallel way w (Via F) x (y w.names) :=
  of_alike (fun r => (equi r).alike) self

theorem mono {R' : Stage → α → β → Prop} {x : Run α} {y : Run β} (first : T.Parallel way w R x y)
    (weaker : ∀ w' a b, w.Leads w' → R w' a b → R' w' a b) : T.Parallel way w R' x y := by
  intro sound
  have ends := first sound
  generalize x w.left = a at ends ⊢
  generalize y w.right = b at ends ⊢
  cases ends with
  | ok leads sound' rel => exact .ok leads sound' (weaker _ _ _ leads rel)
  | fault leads sound' like => exact .fault leads sound' like
  | forth forth => exact .forth forth
  | back back => exact .back back

theorem pure {a : α} {b : β} (rel : R w a b) : T.Parallel way w R (Pure.pure a) (Pure.pure b) :=
  fun sound => .ok sound.refl sound rel

theorem stop {f f' : Fault} (like : Fault.Like T.loose f f') :
    T.Parallel way w R (Run.fault f) (Run.fault f') :=
  fun sound => .fault sound.refl sound like

theorem fault {f f' : Fault} (bare : f'.bare = f.bare) :
    T.Parallel way w R (Run.fault f) (Run.fault f') :=
  stop (.bare bare)

theorem bind {x : Run α} {y : Run β} {h : α → Run γ} {k : β → Run δ} (first : T.Parallel way w R x y)
    (second : ∀ w' a b, w.Leads w' → R w' a b → T.Parallel way w' Q (h a) (k b)) :
    T.Parallel way w Q (x >>= h) (y >>= k) := by
  intro sound
  have ends := first sound
  generalize left : x w.left = a at ends
  generalize right : y w.right = b at ends
  cases ends with
  | ok leads sound' rel =>
      rw [bind_of_ok left, bind_of_ok right]
      exact (second _ _ _ leads rel sound').before leads
  | fault leads sound' like =>
      rw [bind_of_error left, bind_of_error right]
      exact .fault leads sound' like
  | forth forth =>
      rw [bind_of_error left]
      exact .forth forth
  | back back =>
      rw [bind_of_error right]
      exact .back back

theorem map {x : Run α} {y : Run β} {f : α → γ} {g : β → δ} (first : T.Parallel way w R x y)
    (same : ∀ w' a b, w.Leads w' → R w' a b → Q w' (f a) (g b)) :
    T.Parallel way w Q (f <$> x) (g <$> y) := by
  simpa only [bind_pure_comp] using
    first.bind fun w' a b leads rel => pure (R := Q) (same w' a b leads rel)

theorem recover {x : Run α} {y : Run β} {h : Fault → Run α} {k : Fault → Run β}
    (first : T.Parallel way w R x y)
    (second : ∀ w' f f', w.Leads w' → Fault.Like T.loose f f' → T.Parallel way w' R (h f) (k f')) :
    T.Parallel way w R (Run.recover x h) (Run.recover y k) := by
  intro sound
  have ends := first sound
  generalize left : x w.left = a at ends
  generalize right : y w.right = b at ends
  cases ends with
  | ok leads sound' rel =>
      rw [recover_of_ok left, recover_of_ok right]
      exact .ok leads sound' rel
  | fault leads sound' like =>
      rw [recover_of_fault left, recover_of_fault right]
      exact (second _ _ _ leads like sound').before leads
  | forth forth =>
      rw [recover_of_outOfFuel left]
      exact .forth forth
  | back back =>
      rw [recover_of_outOfFuel right]
      exact .back back

theorem get {h : Store → Run γ} {k : Store → Run δ}
    (second : T.Sound w → T.Parallel way w Q (h w.left) (k w.right)) :
    T.Parallel way w Q ((MonadState.get : Run Store) >>= h) ((MonadState.get : Run Store) >>= k) :=
  fun sound => second sound sound

theorem given {x : Run α} {y : Run β} (both : T.Sound w → T.Parallel way w R x y) :
    T.Parallel way w R x y :=
  fun sound => both sound sound

theorem ite {c d : Prop} [Decidable c] [Decidable d] (same : d ↔ c) {x x' : Run α} {y y' : Run β}
    (yes : T.Parallel way w R x y) (no : T.Parallel way w R x' y') :
    T.Parallel way w R (if c then x else x') (if d then y else y') := by
  by_cases holds : c
  · rw [if_pos holds, if_pos (same.mpr holds)]
    exact yes
  · rw [if_neg holds, if_neg (holds ∘ same.mp)]
    exact no

theorem discard {x : Run α} {y : Run β} (first : T.Parallel way w R x y) :
    T.Parallel way w (fun _ _ _ => True) (Functor.discard x) (Functor.discard y) :=
  first.map fun _ _ _ _ _ => trivial

theorem ensuring {x : Run α} {y : Run β} {last last' : Run Unit} (first : T.Parallel way w R x y)
    (kept : ∀ w' w'' a b, Stage.Leads w' w'' → R w' a b → R w'' a b)
    (ends : ∀ w', w.Leads w' → T.Parallel way w' (fun _ _ _ => True) last last') :
    T.Parallel way w R (Run.ensuring x last) (Run.ensuring y last') := by
  refine (first.recover fun w' f f' leads like => ?_).bind fun w' a b leads rel => ?_
  · exact (ends w' leads).bind fun _ _ _ _ _ => stop like
  · exact (ends w' leads).bind fun w'' _ _ leads' _ => pure (kept w' w'' a b leads' rel)

/-- Nothing bounds how deep calls are nested. -/
theorem deeper {x : Run α} {y : Run β} (first : T.Parallel way w R x y) :
    T.Parallel way w R (Run.deeper x) (Run.deeper y) := by
  intro sound
  have room := sound.rooted.room
  have room' : w.right.stack.room = none := sound.beside.image.stack ▸ room
  simpa [Run.deeper, room, room'] using first sound

end Parallel

end Twins

end Knot
