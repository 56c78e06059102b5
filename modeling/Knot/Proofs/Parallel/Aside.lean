import Knot.Proofs.Parallel.Runs

/-!
Steps that one of two runs takes alone. The second run may give out marks and open frames that stand for
nothing, and change tallies of its own; the first one may tell what it does. And where both make a
function, each of them sees its own scope from then on.
-/

namespace Knot

open Run Renaming

namespace Renaming

/-- A renaming under which two stores have room for what they give out next, and one of them for tallies
of its own. -/
structure Bounded (r : Renaming) (own : List Nat) (t s : Store) : Prop where
  positive : 0 < t.nextMark
  opened : 0 < t.frames.size
  marks : ∀ m < t.nextMark, r.mark m < s.nextMark
  frames : ∀ id < t.frames.size, r.frame id < s.frames.size
  owned : ∀ m ∈ own, m < s.nextMark
  apart : ∀ m ∈ own, ∀ x < t.nextMark, r.mark x ≠ m

/-- The renaming that numbers what a store gives out next as another one does. -/
def onward (r : Renaming) (own : List Nat) (t s : Store) (bounded : r.Bounded own t s) : Renaming where
  mark m := if m < t.nextMark then r.mark m else s.nextMark + (m - t.nextMark)
  frame id := if id < t.frames.size then r.frame id else s.frames.size + (id - t.frames.size)
  mark_injective m n same := by
    dsimp only at same
    split at same <;> split at same
    · exact r.mark_injective same
    · have := bounded.marks m ‹_›
      omega
    · have := bounded.marks n ‹_›
      omega
    · omega
  frame_strict m n below := by
    dsimp only
    split <;> split
    · exact r.frame_strict below
    · have := bounded.frames m ‹_›
      omega
    · omega
    · omega
  mark_zero := by rw [if_pos bounded.positive, r.mark_zero]
  frame_zero := by rw [if_pos bounded.opened, r.frame_zero]
  sees := r.sees
  own := own
  own_apart m own x := by
    split
    · exact bounded.apart m own x ‹_›
    · have := bounded.owned m own
      omega

variable {r : Renaming} {own : List Nat} {t s s' : Store}

theorem onward_agrees (bounded : r.Bounded own t s) : r.Agrees (r.onward own t s bounded) t :=
  ⟨fun _ below => if_pos below, fun _ below => if_pos below, fun _ _ => rfl⟩

theorem onward_mark (bounded : r.Bounded own t s) (i : Nat) :
    (r.onward own t s bounded).mark (t.nextMark + i) = s.nextMark + i := by
  simp [onward]

theorem onward_frame (bounded : r.Bounded own t s) (i : Nat) :
    (r.onward own t s bounded).frame (t.frames.size + i) = s.frames.size + i := by
  simp [onward]

theorem onward_mark_of_le (bounded : r.Bounded own t s) {m : Nat} (above : t.nextMark ≤ m) :
    s.nextMark ≤ (r.onward own t s bounded).mark m := by
  obtain ⟨i, rfl⟩ := Nat.exists_eq_add_of_le above
  exact onward_mark bounded i ▸ Nat.le_add_right _ _

theorem onward_frame_of_le (bounded : r.Bounded own t s) {id : Nat} (above : t.frames.size ≤ id) :
    s.frames.size ≤ (r.onward own t s bounded).frame id := by
  obtain ⟨i, rfl⟩ := Nat.exists_eq_add_of_le above
  exact onward_frame bounded i ▸ Nat.le_add_right _ _

/-- What is added to an image of a store stands for nothing in it. -/
theorem onward_beside (rooted : Rooted t) (beside : Beside r t s)
    (below : ∀ m < t.nextMark, r.mark m < s.nextMark)
    (marked : ∀ id < s.frames.size, (s.frame id).mark < s.nextMark) (adds : Adds own s s')
    (bounded : r.Bounded own t s')
    (alone : s'.tallies.filter (!own.contains ·.1) = s.tallies.filter (!r.own.contains ·.1)) :
    Beside (r.onward own t s' bounded) t s' := by
  have agrees := onward_agrees bounded
  refine ⟨rooted.image_of_agrees agrees beside.image adds alone (fun id => ?_)
    fun id inside outside m => ?_, onward_mark bounded, onward_frame bounded⟩
  · by_cases old : id < t.frames.size
    · exact iff_of_true (agrees.frames id old ▸ bounded.frames id old) old
    · exact iff_of_false (Nat.not_lt.mpr (onward_frame_of_le bounded (Nat.le_of_not_lt old))) old
  · by_cases added : id < s.frames.size
    · rw [adds.same id added]
      by_cases new : t.nextMark ≤ m
      · exact (((marked id added).trans_le adds.marks).trans_le (onward_mark_of_le bounded new)).ne
      · have old : m < t.nextMark := Nat.lt_of_not_le new
        rw [agrees.marks m old]
        refine beside.image.frames.apart id added (fun j same => ?_) m
        by_cases inner : j < t.frames.size
        · exact outside j ((agrees.frames j inner).trans same)
        · obtain ⟨i, rfl⟩ := Nat.exists_eq_add_of_le (Nat.le_of_not_lt inner)
          have := beside.frames i
          omega
    · have new := adds.new id inside (Nat.le_of_not_lt added)
      by_cases above : t.nextMark ≤ m
      · exact (new.2.trans_le (onward_mark_of_le bounded above)).ne
      · have old : m < t.nextMark := Nat.lt_of_not_le above
        rw [agrees.marks m old]
        exact ((below m old).trans_le new.1).ne'

end Renaming

namespace Twins

variable {T : Twins} {way : Way} {α β γ δ : Type} {w w' : Stage} {R : Stage → α → β → Prop}

namespace Sound

/-- What the second run adds for itself. -/
theorem aside (sound : T.Sound w) {s : Store} (adds : Adds T.own w.right s) (holds : T.Holds s) :
    ∃ names, T.Sound ⟨names, w.left, s⟩ ∧ w.Leads ⟨names, w.left, s⟩ := by
  have rooted := sound.rooted
  have marks := adds.marks
  have size := adds.size
  have bounded : w.names.Bounded T.own w.left s :=
    ⟨rooted.positive, rooted.opened, fun m below => (sound.below m below).trans_le marks,
      fun id below => (sound.inside below).trans_le size,
      fun m member => (sound.owned m member).trans_le marks,
      fun m member x _ => w.names.own_apart m (sound.own ▸ member) x⟩
  have agrees := onward_agrees bounded
  have beside := onward_beside rooted sound.beside sound.below sound.marked adds bounded
    (sound.own ▸ adds.tallies)
  have leads : w.Leads ⟨w.names.onward T.own w.left s bounded, w.left, s⟩ :=
    ⟨rooted, agrees, Nat.le_refl _, Nat.le_refl _, marks,
      fun _ above => marks.trans (onward_mark_of_le bounded above),
      fun _ above => size.trans (onward_frame_of_le bounded above),
      ⟨size, fun id below _ => adds.same id below⟩⟩
  exact ⟨_, ⟨beside, rooted, fun m below => agrees.marks m below ▸ bounded.marks m below,
    adds.marked sound.marked, rfl, fun m member => (sound.owned m member).trans_le marks,
    fun m member => sound.keeps_later leads member,
    fun v scope' seen => (sound.sees v scope' seen).later leads, holds⟩, leads⟩

/-- What the first run tells. -/
theorem told (sound : T.Sound w) (d : Deed) :
    T.Sound ⟨w.names, w.left.did d, w.right⟩ ∧ w.Leads ⟨w.names, w.left.did d, w.right⟩ := by
  have leads : w.Leads ⟨w.names, w.left.did d, w.right⟩ :=
    ⟨sound.rooted, .refl .., Nat.le_refl _, Nat.le_refl _, Nat.le_refl _, sound.refl.newMarks,
      sound.refl.newFrames, .refl _⟩
  have image (r : Renaming) {s : Store} (image : Image r w.left s) : Image r (w.left.did d) s :=
    ⟨image.frames, image.tallies, image.contents, image.tables, image.given, image.namespaces,
      image.entered, image.session, image.stack, image.out⟩
  have rooted : Rooted (w.left.did d) :=
    ⟨fun r fixes => did_image (sound.rooted.image r ⟨fixes.marks, fixes.frames, fixes.scopes,
      fixes.alone⟩) d d, sound.rooted.positive, sound.rooted.opened, sound.rooted.room⟩
  exact ⟨⟨⟨image _ sound.beside.image, sound.beside.marks, sound.beside.frames⟩, rooted, sound.below,
    sound.marked, sound.own, sound.owned, sound.keeps,
    fun v scope' seen => (sound.sees v scope' seen).later leads, sound.holds⟩, leads⟩

end Sound

namespace Parallel

/-- The first run goes on as another one does. -/
theorem onward {x x' : Run α} {y : Run β} (run : x w.left = x' w.left) (rest : T.Parallel way w R x' y) :
    T.Parallel way w R x y := by
  intro sound
  rw [run]
  exact rest sound

/-- The second run goes on from a store that has more. -/
theorem aside {x : Run α} {y y' : Run β} {s : Store} (run : y w.right = y' s)
    (adds : T.Sound w → Adds T.own w.right s) (holds : T.Holds w.right → T.Holds s)
    (rest : ∀ names, w.Leads ⟨names, w.left, s⟩ → T.Parallel way ⟨names, w.left, s⟩ R x y') :
    T.Parallel way w R x y := by
  intro sound
  obtain ⟨names, sound', leads⟩ := sound.aside (adds sound) (holds sound.holds)
  rw [run]
  exact (rest names leads sound').before leads

/-- The first run tells something. -/
theorem told {x : Run α} {y : Run β} (d : Deed)
    (rest : ∀ w', w.Leads w' → T.Parallel way w' R x y) :
    T.Parallel way w R (tell d >>= fun _ => x) y := by
  intro sound
  obtain ⟨sound', leads⟩ := sound.told d
  exact (rest _ leads sound').before leads

/-- Each run tells something. -/
theorem tells {x : Run α} {y : Run β} (d d' : Deed)
    (rest : ∀ w', w.Leads w' → T.Parallel way w' R x y) :
    T.Parallel way w R (tell d >>= fun _ => x) (tell d' >>= fun _ => y) :=
  told d fun w' leads => aside (s := w'.right.did d') rfl (fun _ => .did ..)
    (T.holds_same fun _ _ => rfl) fun _ leads' => rest _ (leads.trans leads')

end Parallel

/-! Making functions. -/

theorem settled_closure {t : Store} {mark : Nat} {header : Header} {body : Term} {scope : Scope}
    (below : mark < t.nextMark) (fixed : Fixed Renaming.named t scope) :
    Settled t (.closure mark header body scope) := fun r fixes => by
  rw [fixes.scopes.closure, fixes.marks mark below, fixed r fixes]

open Classical in
/-- The renaming under which a function sees a scope of its own. -/
noncomputable def seeing (r : Renaming) (v : Value) (scope : Scope) : Renaming :=
  { r with sees := fun u => if u = v then some scope else r.sees u }

theorem seeing_self (r : Renaming) (v : Value) (scope : Scope) : (seeing r v scope).sees v = some scope :=
  if_pos rfl

theorem seeing_of_ne (r : Renaming) {u v : Value} (scope : Scope) (ne : u ≠ v) :
    (seeing r v scope).sees u = r.sees u :=
  if_neg ne

/-- Both runs make a function that sees what they see. -/
theorem Parallel.closing {names : List String} {scope scope' : Scope} (header : Header) (body : Term)
    (only : body.onlyCalls T.form (without names header.params))
    (scopes : T.Scopes w names scope scope') :
    T.Parallel way w (Via Value.rename) (Form.closing header body scope)
      (Form.closing header body scope') := by
  intro sound
  have fresh : Follows w.names w.left (w.left.skip 1) w.right (w.right.skip 1) := by
    have numbered : Run.fresh w.left = .ok w.left.nextMark (w.left.skip 1) := rfl
    obtain ⟨s, run, follows⟩ := Equi.fresh.ok sound.beside.image numbered
      ⟨fun i _ => sound.beside.marks i, fun i _ => sound.beside.frames i⟩
    injection run with _ same
    subst same
    exact follows
  have went : Went 0 w.left (w.left.skip 1) := ⟨Nat.le_succ _, Nat.le_refl _, rfl, .still rfl rfl rfl⟩
  have skipped {r : Renaming} {t s : Store} (image : Image r t s) : Image r (t.skip 1) (s.skip 1) :=
    ⟨image.frames, image.tallies, image.contents, image.tables, image.given, image.namespaces,
      image.entered, image.session, image.stack, image.out⟩
  obtain ⟨sound₁, leads₁⟩ := sound.follows went fresh fun r fixes => skipped
    (sound.rooted.image r ⟨fun m below => fixes.marks m (Nat.lt_succ_of_lt below), fixes.frames,
      fixes.scopes, fixes.alone⟩)
  let made : Value := .closure w.left.nextMark header body scope
  have new {v : Value} (settled : Settled w.left v) : v ≠ made := by
    rintro rfl
    have fixed : Fixed Renaming.mark w.left w.left.nextMark := fun r fixes => by
      have same := settled r fixes
      rw [fixes.scopes.closure] at same
      injection same
    exact absurd (sound.rooted.mark_lt fixed) (Nat.lt_irrefl _)
  have agrees : w.names.Agrees (seeing w.names made scope') w.left :=
    ⟨fun _ _ => rfl, fun _ _ => rfl, fun v settled => seeing_of_ne _ _ (new settled)⟩
  have beside : Beside (seeing w.names made scope') (w.left.skip 1) (w.right.skip 1) :=
    ⟨skipped (sound.rooted.image_of_agrees agrees sound.beside.image (.refl [] _) rfl
      sound.beside.image.frames.inside sound.beside.image.frames.apart), sound₁.beside.marks,
      sound₁.beside.frames⟩
  have leads : w.Leads ⟨seeing w.names made scope', w.left.skip 1, w.right.skip 1⟩ :=
    ⟨sound.rooted, agrees, leads₁.marks, leads₁.frames, leads₁.given, leads₁.newMarks,
      leads₁.newFrames, leads₁.kept⟩
  have settled : Settled (w.left.skip 1) made :=
    settled_closure (Nat.lt_succ_self _) (scopes.fixed.later (Nat.le_succ _) (Nat.le_refl _))
  have seen : T.Sees ⟨seeing w.names made scope', w.left.skip 1, w.right.skip 1⟩ made scope' :=
    ⟨_, header, body, scope, names, rfl, settled, only, scopes.later leads⟩
  let made' : Value := .closure w.right.nextMark header body scope'
  refine Ends.ok (T := T) (a := made) (b := made') leads
    ⟨beside, sound₁.rooted, sound₁.below, sound₁.marked, sound₁.own, sound₁.owned, sound₁.keeps,
      fun v sc saw => ?_, sound₁.holds⟩ ⟨settled, ?_⟩
  · by_cases same : v = made
    · subst same
      rw [seeing_self] at saw
      exact Option.some.inj saw ▸ seen
    · rw [seeing_of_ne _ _ same] at saw
      exact (sound.sees v sc saw).later leads
  · have first := sound.beside.marks 0
    simp only [Nat.add_zero] at first
    simp only [made, made', Value.rename, seeing_self, Option.getD_some]
    exact congrArg (Value.closure · header body scope') first.symm

/-- Functions that see nothing. -/
theorem Sound.closure_nil (sound : T.Sound w) {mark mark' : Nat} (marks : Via Renaming.mark w mark mark')
    (header : Header) (body : Term) :
    Peer w (.closure mark header body []) (.closure mark' header body []) where
  fixed r fixes := by
    rw [fixes.scopes.closure, marks.fixed r fixes]
    rfl
  eq := by
    have nothing : (w.names.sees (.closure mark header body [])).getD [] = [] := by
      cases seen : w.names.sees (.closure mark header body []) with
      | none => rfl
      | some scope' =>
          obtain ⟨_, _, _, scope, _, made, _, _, scopes⟩ := sound.sees _ _ seen
          injection made with _ _ _ none
          subst none
          cases scope' with
          | nil => rfl
          | cons entry rest =>
              have looked := scopes.seen entry.1
              rw [List.lookup_nil, List.lookup_cons, beq_self_eq_true] at looked
              cases looked
    simp only [Value.rename, Value.renameScope_eq, List.map_nil, nothing, ← marks.eq]

end Twins

end Knot
