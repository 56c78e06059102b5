import Knot.Proofs.Renaming.Run

/-!
Runs that take no notice of what was printed before them: with some other text before it, what they
print comes behind that text, and nothing else changes.
-/

namespace Knot

namespace Store

/-- The store with some text before all that was printed. -/
def behind (text : String) (s : Store) : Store := { s with out := text ++ s.out }

/-! What was printed does not show in any value. -/

section

variable (s : Store) (out : String)

theorem out_contentsNow (code : (Value → Value) → Value → Value) (hops : Nat) :
    ({ s with out } : Store).contentsNow code hops = s.contentsNow code hops := by
  induction hops with
  | zero => rfl
  | succ hops ih =>
      simp only [contentsNow, ih]
      rfl

theorem out_now : ({ s with out } : Store).now = s.now := by
  funext v
  simp only [now, out_contentsNow]

theorem out_view : ({ s with out } : Store).view = s.view := by
  have code : ({ s with out } : Store).codeShown = s.codeShown := rfl
  funext v
  simp only [view, out_contentsNow, code]

end

/-! Stores with another text before what was printed. -/

variable (text : String) (s : Store)

theorem behind_now : (s.behind text).now = s.now := s.out_now _

theorem behind_view : (s.behind text).view = s.view := s.out_view _

theorem behind_frame : (s.behind text).frame = s.frame := rfl

theorem behind_head : (s.behind text).head = s.head := rfl

theorem behind_reader : (s.behind text).reader = s.reader := by
  simp only [reader, behind_view, behind_frame]

theorem behind_setFrame (id : Nat) (frame : Frame) :
    (s.behind text).setFrame id frame = (s.setFrame id frame).behind text := by
  have known : (s.behind text).namespaces = s.namespaces := rfl
  unfold setFrame
  dsimp only
  rw [known]
  split <;> rfl

theorem behind_change (id : Nat) (frame : Frame) (e : Event) :
    (s.behind text).change id frame e = (s.change id frame e).behind text := by
  have shared : (s.behind text).isShared id frame = s.isShared id frame := rfl
  rw [change, behind_setFrame, shared]
  rfl

theorem behind_shareMark (mark : Nat) :
    (s.behind text).shareMark mark = (s.shareMark mark).behind text := by
  have found : (s.behind text).frameOfMark? mark = s.frameOfMark? mark := rfl
  unfold shareMark
  rw [found]
  split <;> rfl

theorem behind_share (v : Value) : (s.behind text).share v = (s.share v).behind text := by
  unfold share
  split
  · exact s.behind_shareMark text _
  · rfl

theorem behind_replaceNames (id : Nat) (frame : Frame) :
    (s.behind text).replaceNames id frame = (s.replaceNames id frame).behind text := by
  unfold replaceNames
  dsimp only
  rw [← behind_shareMark, ← behind_shareMark]
  rfl

end Store

namespace Run

variable {α β : Type}

/-- How a run ended, with some text before all that was printed. -/
def Ended.behind (text : String) : EStateM.Result Stop Store α → EStateM.Result Stop Store α
  | .ok a t => .ok a (t.behind text)
  | .error e t => .error e (t.behind text)

/-- A run that takes no notice of what was printed before. -/
def Heedless (x : Run α) : Prop := ∀ text s, x (s.behind text) = Ended.behind text (x s)

namespace Heedless

theorem pure (a : α) : Heedless (Pure.pure a : Run α) := fun _ _ => rfl

theorem stop (e : Stop) : Heedless (throw e : Run α) := fun _ _ => rfl

theorem bind {x : Run α} {h : α → Run β} (first : Heedless x) (second : ∀ a, Heedless (h a)) :
    Heedless (x >>= h) := by
  intro text s
  have before := first text s
  cases run : x s with
  | ok a t =>
      rw [run] at before
      rw [bind_of_ok run, bind_of_ok before]
      exact second a text t
  | error e t =>
      rw [run] at before
      rw [bind_of_error run, bind_of_error before]
      rfl

theorem map (f : α → β) {x : Run α} (heedless : Heedless x) : Heedless (f <$> x) := by
  simpa only [bind_pure_comp] using heedless.bind fun a => pure (f a)

theorem discard {x : Run α} (heedless : Heedless x) : Heedless (Functor.discard x) := heedless.map _

theorem recover {x : Run α} {h : Fault → Run α} (first : Heedless x) (second : ∀ f, Heedless (h f)) :
    Heedless (Run.recover x h) := by
  intro text s
  have before := first text s
  cases run : x s with
  | ok a t =>
      rw [run] at before
      rw [recover_of_ok run, recover_of_ok before]
      rfl
  | error e t =>
      rw [run] at before
      cases e with
      | outOfFuel =>
          rw [recover_of_outOfFuel run, recover_of_outOfFuel before]
          rfl
      | fault f =>
          rw [recover_of_fault run, recover_of_fault before]
          exact second f text t

theorem ensuring {x : Run α} {last : Run Unit} (heedless : Heedless x) (ends : Heedless last) :
    Heedless (Run.ensuring x last) :=
  (heedless.recover fun f => ends.bind fun _ => stop (.fault f)).bind fun a => ends.bind fun _ => pure a

theorem get {h : Store → Run β} (second : ∀ s, Heedless (h s))
    (unseen : ∀ text s, h (s.behind text) = h s) : Heedless ((MonadState.get : Run Store) >>= h) := by
  intro text s
  calc h (s.behind text) (s.behind text)
    _ = h s (s.behind text) := by rw [unseen]
    _ = Ended.behind text (h s s) := second s text s

theorem update {f : Store → Store} (commutes : ∀ text s, f (s.behind text) = (f s).behind text) :
    Heedless (modify f : Run Unit) :=
  fun text s => congrArg (EStateM.Result.ok ()) (commutes text s)

theorem deeper {x : Run α} (heedless : Heedless x) : Heedless (Run.deeper x) := by
  intro text s
  have room : (s.behind text).stack = s.stack := rfl
  unfold Run.deeper
  rw [room]
  split
  · exact heedless text s
  · split
    · rfl
    · have inner := heedless text (atDepth (s.stack.depth + 1) s)
      have same : atDepth (s.stack.depth + 1) (s.behind text) =
          (atDepth (s.stack.depth + 1) s).behind text := rfl
      dsimp only
      rw [same, inner]
      cases x (atDepth (s.stack.depth + 1) s) <;> rfl

theorem writing (writer : Writer) {x : Run α} (heedless : Heedless x) : Heedless (Run.writing writer x) := by
  intro text s
  have inner := heedless text { s with writer }
  have same : { s.behind text with writer } = ({ s with writer } : Store).behind text := rfl
  unfold Run.writing
  rw [same, inner]
  cases x { s with writer } <;> rfl

end Heedless

end Run

end Knot
