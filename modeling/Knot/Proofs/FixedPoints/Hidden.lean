import Knot.Proofs.FixedPoints.Descent
import Knot.Proofs.Parallel.Levels

/-!
What the second of two runs holds for itself. Marks and frames that stand for nothing in the first run
stay as they were made, so a procedure of such parts does, whatever programs do, what it was made for.
-/

namespace Knot

open Run Renaming Store Term Calculus

variable {s : Store}

/-- Nothing is recorded of what a rooted store has not given out. -/
theorem Rooted.fresh (rooted : Rooted s) : s.Fresh := by
  have unmarked {α : Type} {bindings : Bindings Nat α} {F : Renaming → α → α}
      (same : ∀ r : Renaming, r.Fixes s → bindings = bindings.map (Prod.map r.mark (F r))) (m : Nat)
      (above : s.nextMark ≤ m) : bindings.lookup m = none := by
    refine List.lookup_eq_none_iff.mpr fun entry member => ?_
    have below : entry.1 < s.nextMark :=
      rooted.mark_lt fun r fixes => congrArg Prod.fst (map_fixed (same r fixes).symm _ member)
    simp only [bne_iff_ne, ne_eq]
    omega
  refine ⟨rooted.positive, rooted.opened, unmarked fun r fixes => (rooted.image r fixes).contents,
    unmarked fun r fixes => (rooted.image r fixes).tables, unmarked fun r fixes => (rooted.image r fixes).namespaces,
    unmarked (F := fun _ => id) fun r fixes => (rooted.image r fixes).entered, fun id name above => ?_⟩
  refine List.lookup_eq_none_iff.mpr fun entry member => ?_
  obtain ⟨⟨holder, other⟩, v⟩ := entry
  cases holder with
  | kind k => rfl
  | environment id' =>
      have below : id' < s.frames.size := rooted.frame_lt fun r fixes => by
        have fixed := map_fixed (rooted.image r fixes).given.symm _ member
        simpa [Renaming.holder] using congrArg (fun entry => entry.1.1) fixed
      simp only [bne_iff_ne, ne_eq, Prod.mk.injEq, Holder.environment.injEq]
      omega

namespace Stage

variable {w w' : Stage}

/-- A mark of the second run that stands for nothing in the first one. -/
def HidesMark (w : Stage) (m : Nat) : Prop := m < w.right.nextMark ∧ ∀ x, w.names.mark x ≠ m

/-- A frame of the second run that stands for nothing in the first one. -/
def HidesFrame (w : Stage) (id : Nat) : Prop := id < w.right.frames.size ∧ ∀ x, w.names.frame x ≠ id

/-- An environment of one name in such a frame. -/
def HidesBinding (w : Stage) (name : String) (v outer env : Value) : Prop :=
  ∃ id, env = .environment id outer ∧ w.HidesFrame id ∧ (w.right.frame id).bindings = [(name, v)]

/-- A procedure of such marks. -/
def HidesProcedure (w : Stage) (params : List String) (header : Header) (body : Term) (scope : Scope)
    (env proc : Value) : Prop :=
  ∃ mark dict list own, proc = .procedure mark (.dict dict (code (.closure own header body scope) list params)) env ∧
    w.HidesMark dict ∧ w.HidesMark list ∧ w.HidesMark mark

theorem HidesMark.later {m : Nat} (hides : w.HidesMark m) (leads : w.Leads w') : w'.HidesMark m := by
  refine ⟨hides.1.trans_le leads.given, fun x same => ?_⟩
  by_cases below : x < w.left.nextMark
  · exact hides.2 x ((leads.agrees.marks x below).symm.trans same)
  · have := leads.newMarks x (Nat.le_of_not_lt below)
    have := hides.1
    omega

theorem HidesFrame.later {id : Nat} (hides : w.HidesFrame id) (leads : w.Leads w') : w'.HidesFrame id := by
  refine ⟨hides.1.trans_le leads.kept.grows, fun x same => ?_⟩
  by_cases below : x < w.left.frames.size
  · exact hides.2 x ((leads.agrees.frames x below).symm.trans same)
  · have := leads.newFrames x (Nat.le_of_not_lt below)
    have := hides.1
    omega

theorem HidesBinding.later {name : String} {v outer env : Value} (hides : w.HidesBinding name v outer env)
    (leads : w.Leads w') : w'.HidesBinding name v outer env := by
  obtain ⟨id, rfl, hidden, bindings⟩ := hides
  have kept : w'.right.frame id = w.right.frame id := leads.kept.same id hidden.1 hidden.2
  exact ⟨id, rfl, hidden.later leads, kept ▸ bindings⟩

variable {params : List String} {header : Header} {body : Term} {scope : Scope} {env proc : Value}

theorem HidesProcedure.later (hides : w.HidesProcedure params header body scope env proc) (leads : w.Leads w') :
    w'.HidesProcedure params header body scope env proc := by
  obtain ⟨mark, dict, list, own, rfl, dicts, lists, known⟩ := hides
  exact ⟨mark, dict, list, own, rfl, dicts.later leads, lists.later leads, known.later leads⟩

theorem HidesProcedure.isInert (hides : w.HidesProcedure params header body scope env proc) : proc.isInert := by
  obtain ⟨_, _, _, _, rfl, -⟩ := hides
  rfl

end Stage

namespace Calculus.Delay

variable (δ : Delay) (g : Value) {w w' : Stage} {root p : Value}

/-- A root of the second run for a generator or code. -/
def HidesRoot (w : Stage) (root : Value) : Prop :=
  ∃ env, w.HidesBinding "d" g outermost env ∧
    w.HidesProcedure ["sf"] (bodyHeader 1 "πsf") (Term.app (attr (var "πd") "d") [δ.term]) [("πd", env)] env root

/-- A delay of the second run over such a root. -/
def HidesDelay (w : Stage) (p : Value) : Prop :=
  ∃ env id root, w.HidesBinding "sf" root (.environment id outermost) env ∧
    w.HidesProcedure δ.params (bodyHeader 2 δ.env) δ.body [("πsf", env), ("πd", .environment id outermost)] env p ∧
      δ.HidesRoot g w root

variable {δ g}

theorem HidesRoot.later (hides : δ.HidesRoot g w root) (leads : w.Leads w') : δ.HidesRoot g w' root := by
  obtain ⟨env, binding, procedure⟩ := hides
  exact ⟨env, binding.later leads, procedure.later leads⟩

theorem HidesDelay.later (hides : δ.HidesDelay g w p) (leads : w.Leads w') : δ.HidesDelay g w' p := by
  obtain ⟨env, id, root, binding, procedure, inner⟩ := hides
  exact ⟨env, id, root, binding.later leads, procedure.later leads, inner.later leads⟩

theorem HidesDelay.isInert (hides : δ.HidesDelay g w p) : p.isInert := by
  obtain ⟨_, _, _, -, procedure, -⟩ := hides
  exact procedure.isInert

end Calculus.Delay

namespace Twins.Sound

variable {T : Twins} {w : Stage} (sound : T.Sound w)
include sound

/-- Nothing is recorded of what the second run has not given out. -/
theorem fresh : w.right.Fresh := by
  have image := sound.beside.image
  have new := sound.rooted.fresh
  have marks (m : Nat) (above : w.right.nextMark ≤ m) :
      ∃ x, w.left.nextMark ≤ x ∧ w.names.mark x = m :=
    ⟨w.left.nextMark + (m - w.right.nextMark), Nat.le_add_right _ _, by rw [sound.beside.marks]; omega⟩
  have unmarked {α : Type} {bindings : Bindings Nat α} {f : α → α}
      (nothing : ∀ m, w.left.nextMark ≤ m → bindings.lookup m = none) (m : Nat) (above : w.right.nextMark ≤ m) :
      List.lookup m (bindings.map (Prod.map w.names.mark f)) = none := by
    obtain ⟨x, beyond, rfl⟩ := marks m above
    rw [lookup_of_injective w.names.mark_injective, nothing x beyond, Option.map_none]
  refine ⟨Nat.zero_lt_of_lt (sound.below 0 sound.rooted.positive), Nat.zero_lt_of_lt (sound.inside sound.rooted.opened),
    ?_, ?_, ?_, ?_, fun id name above => ?_⟩
  · exact image.contents ▸ unmarked new.contents
  · exact image.tables ▸ unmarked new.tables
  · rw [image.namespaces]
    intro m above
    obtain ⟨x, beyond, rfl⟩ := marks m above
    rw [lookup_of_injective w.names.mark_injective, new.namespaces x beyond, Option.map_none]
  · exact image.entered ▸ unmarked new.entered
  · obtain ⟨i, rfl⟩ := Nat.exists_eq_add_of_le above
    have key : (Holder.environment (w.right.frames.size + i), name) =
        Prod.map w.names.holder id (.environment (w.left.frames.size + i), name) := by
      simp [Renaming.holder, sound.beside.frames]
    rw [image.given, key, lookup_of_injective w.names.attribute_injective, new.given _ _ (Nat.le_add_right _ _),
      Option.map_none]

theorem hidden_contents {m : Nat} (hides : w.HidesMark m) : w.right.contents.lookup m = none := by
  rw [sound.beside.image.contents]
  exact lookup_skipped hides.2 _

theorem hidden_table {m : Nat} (hides : w.HidesMark m) : w.right.table? m = none := by
  rw [Store.table?, sound.beside.image.namespaces, sound.beside.image.tables, lookup_skipped hides.2,
    lookup_skipped hides.2]

theorem hidden_given {id' : Nat} (hides : w.HidesFrame id') (name : String) :
    w.right.given.lookup (.environment id', name) = none := by
  rw [sound.beside.image.given]
  refine List.lookup_eq_none_iff.mpr fun entry member => ?_
  obtain ⟨⟨⟨holder, other⟩, v⟩, -, rfl⟩ := List.mem_map.mp member
  cases holder with
  | kind k => rfl
  | environment id =>
      have apart := hides.2 id
      simp only [Prod.map_apply, Renaming.holder, bne_iff_ne, ne_eq, Prod.mk.injEq, Holder.environment.injEq]
      exact fun both => apart both.1.symm

theorem binds {name : String} {v outer env : Value} (hides : w.HidesBinding name v outer env) :
    w.right.Binds name v outer env := by
  obtain ⟨id, rfl, hidden, bindings⟩ := hides
  exact ⟨id, rfl, hidden.1, bindings, sound.hidden_given hidden⟩

theorem made {params : List String} {header : Header} {body : Term} {scope : Scope} {env proc : Value}
    (hides : w.HidesProcedure params header body scope env proc) :
    ∃ own, w.right.Made params (.closure own header body scope) env proc := by
  obtain ⟨mark, dict, list, own, rfl, dicts, lists, -⟩ := hides
  have positive : 0 < list := Nat.pos_of_ne_zero fun zero => lists.2 0 (zero ▸ w.names.mark_zero)
  exact ⟨own, mark, dict, list, rfl, positive, lists.1, dicts.1, sound.hidden_contents lists, sound.hidden_table dicts⟩

theorem isRoot {δ : Delay} {g root : Value} (hides : δ.HidesRoot g w root) : δ.IsRoot g w.right root := by
  obtain ⟨env, binding, procedure⟩ := hides
  obtain ⟨own, made⟩ := sound.made procedure
  exact ⟨own, env, made, sound.binds binding⟩

end Twins.Sound

/-! What the second run makes for itself. -/

namespace Twins.Sound

variable {T : Twins} {w : Stage} {names : Renaming} {t : Store} (sound : T.Sound w) (more : w.right.Extends t)
  (sound' : T.Sound ⟨names, w.left, t⟩) (leads : w.Leads ⟨names, w.left, t⟩)
include sound sound' leads

theorem hides_mark {m : Nat} (new : w.right.nextMark ≤ m) (known : m < t.nextMark) :
    Stage.HidesMark ⟨names, w.left, t⟩ m := by
  refine ⟨known, fun x same => ?_⟩
  by_cases below : x < w.left.nextMark
  · have := sound.below x below
    have := leads.agrees.marks x below
    dsimp only at *
    omega
  · have := sound'.mark_of_le (Nat.le_of_not_lt below)
    dsimp only at *
    omega

theorem hides_frame {id : Nat} (new : w.right.frames.size ≤ id) (known : id < t.frames.size) :
    Stage.HidesFrame ⟨names, w.left, t⟩ id := by
  refine ⟨known, fun x same => ?_⟩
  by_cases below : x < w.left.frames.size
  · have := sound.inside below
    have := leads.agrees.frames x below
    dsimp only at *
    omega
  · have := sound'.frame_of_le (Nat.le_of_not_lt below)
    dsimp only at *
    omega

theorem hides_binding {name : String} {v outer env : Value} (binds : w.right.BindsNew t name v outer env) :
    Stage.HidesBinding ⟨names, w.left, t⟩ name v outer env := by
  obtain ⟨id, rfl, new, known, bindings⟩ := binds
  exact ⟨id, rfl, sound.hides_frame sound' leads new known, bindings⟩

theorem hides_procedure {params : List String} {header : Header} {body : Term} {scope : Scope} {env proc : Value}
    (makes : w.right.MakesNew t params header body scope env proc) :
    Stage.HidesProcedure ⟨names, w.left, t⟩ params header body scope env proc := by
  obtain ⟨mark, dict, list, own, rfl, dicts, lists, known⟩ := makes
  exact ⟨mark, dict, list, own, rfl, sound.hides_mark sound' leads dicts.1 dicts.2,
    sound.hides_mark sound' leads lists.1 lists.2, sound.hides_mark sound' leads known.1 known.2⟩

theorem hides_root {δ : Delay} {g root : Value} (makes : δ.MakesRoot g w.right t root) :
    δ.HidesRoot g ⟨names, w.left, t⟩ root := by
  obtain ⟨env, binds, made⟩ := makes
  exact ⟨env, sound.hides_binding sound' leads binds, sound.hides_procedure sound' leads made⟩

theorem hides_delay {δ : Delay} {g root p : Value} (makes : δ.MakesDelay w.right t root p)
    (inner : δ.HidesRoot g ⟨names, w.left, t⟩ root) : δ.HidesDelay g ⟨names, w.left, t⟩ p := by
  obtain ⟨env, id, binds, made⟩ := makes
  exact ⟨env, id, root, sound.hides_binding sound' leads binds, sound.hides_procedure sound' leads made, inner⟩

end Twins.Sound

end Knot
