import Knot.Proofs.Effects.Heedless

/-!
Runs that leave the stack, the managers and the tallies as they are, and of which no deed is told. All
that values do by themselves is of this kind, whatever it changes elsewhere, and it takes no notice of
what was printed before.
-/

namespace Knot

namespace Store

/-- The stack, the managers that were entered, the tallies and the deeds that were told are as they
were, and no mark was taken back. -/
structure Same (s t : Store) : Prop where
  stack : t.stack = s.stack
  entered : t.entered = s.entered
  tallies : t.tallies = s.tallies
  deeds : t.deeds = s.deeds
  marks : s.nextMark ≤ t.nextMark

/-- The deeds that were told since another store, the newest first. -/
def deedsSince (t s : Store) : List Deed := t.deeds.take (t.deeds.length - s.deeds.length)

variable {s t u : Store}

theorem deedsSince_of_append {new : List Deed} (told : t.deeds = new ++ s.deeds) :
    t.deedsSince s = new := by
  simp [deedsSince, told]

theorem deedsSince_append (told : s.deeds <:+ t.deeds) : t.deeds = t.deedsSince s ++ s.deeds := by
  obtain ⟨new, told⟩ := told
  rw [deedsSince_of_append told.symm, told]

theorem deedsSince_trans (first : s.deeds <:+ t.deeds) (second : t.deeds <:+ u.deeds) :
    u.deedsSince s = u.deedsSince t ++ t.deedsSince s := by
  apply deedsSince_of_append
  rw [List.append_assoc, ← deedsSince_append first, ← deedsSince_append second]

theorem deedsSince_did (s : Store) (d : Deed) : (s.did d).deedsSince s = [d] :=
  deedsSince_of_append rfl

theorem deedsSince_of_eq (same : t.deeds = s.deeds) : t.deedsSince s = [] :=
  deedsSince_of_append same

namespace Same

theorem refl (s : Store) : Same s s := ⟨rfl, rfl, rfl, rfl, Nat.le_refl _⟩

theorem trans (first : Same s t) (second : Same t u) : Same s u :=
  ⟨second.stack.trans first.stack, second.entered.trans first.entered,
    second.tallies.trans first.tallies, second.deeds.trans first.deeds,
    first.marks.trans second.marks⟩

end Same

theorem setFrame_same (s : Store) (id : Nat) (frame : Frame) : Same s (s.setFrame id frame) := by
  unfold setFrame
  dsimp only
  split <;> exact ⟨rfl, rfl, rfl, rfl, Nat.le_refl _⟩

theorem shareMark_same (s : Store) (mark : Nat) : Same s (s.shareMark mark) := by
  unfold shareMark
  split <;> exact ⟨rfl, rfl, rfl, rfl, Nat.le_refl _⟩

theorem share_same (s : Store) (v : Value) : Same s (s.share v) := by
  unfold share
  split
  · exact s.shareMark_same _
  · exact .refl s

theorem replaceNames_same (s : Store) (id : Nat) (frame : Frame) :
    Same s (s.replaceNames id frame) := by
  refine Same.trans ?_ (shareMark_same _ _)
  refine Same.trans ?_ (shareMark_same _ _)
  exact ⟨rfl, rfl, rfl, rfl, Nat.le_refl _⟩

theorem change_same (s : Store) (id : Nat) (frame : Frame) (e : Event) :
    Same s (s.change id frame e) := by
  have same := s.setFrame_same id frame
  exact ⟨same.stack, same.entered, same.tallies, same.deeds, same.marks⟩

end Store

open Store

namespace Run

variable {α β : Type}

/-- A run that leaves the stack, the managers and the tallies alone. -/
def Still (x : Run α) : Prop := ∀ s, Same s (x.after s)

namespace Still

theorem pure (a : α) : Still (Pure.pure a : Run α) := fun s => .refl s

theorem stop (e : Stop) : Still (throw e : Run α) := fun s => .refl s

theorem bind {x : Run α} {h : α → Run β} (first : Still x) (second : ∀ a, Still (h a)) :
    Still (x >>= h) := by
  intro s
  cases run : x s with
  | ok a t =>
      have whole : (x >>= h).after s = (h a).after t := by simp [after, bind_of_ok run]
      rw [whole]
      exact (after_of_ok run ▸ first s).trans (second a t)
  | error e t =>
      rw [after_of_error (bind_of_error run)]
      exact after_of_error run ▸ first s

theorem recover {x : Run α} {h : Fault → Run α} (first : Still x) (second : ∀ f, Still (h f)) :
    Still (Run.recover x h) := by
  intro s
  cases run : x s with
  | ok a t =>
      rw [after_of_ok (recover_of_ok run)]
      exact after_of_ok run ▸ first s
  | error e t =>
      have here : Same s t := after_of_error run ▸ first s
      cases e with
      | outOfFuel => exact (after_of_error (recover_of_outOfFuel run)).symm ▸ here
      | fault f =>
          have whole : (Run.recover x h).after s = (h f).after t := by
            simp [after, recover_of_fault run]
          rw [whole]
          exact here.trans (second f t)

end Still

/-- What values do by themselves: the stack, the managers and the tallies are left alone, and what was
printed before is not looked at. -/
structure Tame (x : Run α) : Prop where
  still : Still x
  heedless : Heedless x

namespace Tame

theorem pure (a : α) : Tame (Pure.pure a : Run α) := ⟨.pure a, .pure a⟩

theorem stop (e : Stop) : Tame (throw e : Run α) := ⟨.stop e, .stop e⟩

theorem fault (f : Fault) : Tame (Run.fault f : Run α) := stop _

theorem ofExcept (x : Except Fault α) : Tame (Run.ofExcept x) := by
  cases x with
  | ok a => exact pure a
  | error f => exact stop _

theorem bind {x : Run α} {h : α → Run β} (first : Tame x) (second : ∀ a, Tame (h a)) :
    Tame (x >>= h) where
  still := first.still.bind fun a => (second a).still
  heedless := first.heedless.bind fun a => (second a).heedless

theorem map (f : α → β) {x : Run α} (tame : Tame x) : Tame (f <$> x) := by
  simpa only [bind_pure_comp] using tame.bind fun a => pure (f a)

theorem discard {x : Run α} (tame : Tame x) : Tame (Functor.discard x) := tame.map _

theorem recover {x : Run α} {h : Fault → Run α} (first : Tame x) (second : ∀ f, Tame (h f)) :
    Tame (Run.recover x h) where
  still := first.still.recover fun f => (second f).still
  heedless := first.heedless.recover fun f => (second f).heedless

theorem get {h : Store → Run β} (unseen : ∀ text s, h (s.behind text) = h s) (second : ∀ s, Tame (h s)) :
    Tame ((MonadState.get : Run Store) >>= h) where
  still := fun s => (second s).still s
  heedless := .get (fun s => (second s).heedless) unseen

theorem update {f : Store → Store} (commutes : ∀ text s, f (s.behind text) = (f s).behind text)
    (same : ∀ s, Same s (f s)) : Tame (modify f : Run Unit) :=
  ⟨same, .update commutes⟩

theorem ite {c : Prop} [Decidable c] {x y : Run α} (yes : Tame x) (no : Tame y) :
    Tame (if c then x else y) := by
  split
  · exact yes
  · exact no

theorem mapM {h : α → Run β} (step : ∀ a, Tame (h a)) (as : List α) : Tame (as.mapM h) := by
  induction as with
  | nil => exact pure []
  | cons a as ih =>
      simp only [List.mapM_cons]
      exact (step a).bind fun b => ih.bind fun bs => pure (b :: bs)

end Tame

/-! Making and reading values. -/

theorem fresh_tame : Tame fresh where
  still := fun _ => ⟨rfl, rfl, rfl, rfl, Nat.le_succ _⟩
  heedless := fun _ _ => rfl

theorem fresh_then (f : Nat → α) : Tame (do return f (← fresh) : Run α) :=
  fresh_tame.bind fun mark => .pure (f mark)

theorem list_tame (items : List Value) : Tame (list items) := fresh_then _

theorem tuple_tame (items : List Value) : Tame (tuple items) := fresh_then _

theorem dict_tame (entries : List (Value × Value)) : Tame (dict entries) := fresh_then _

theorem array_tame (dtype : DType) (shape : List Nat) (data : List Value) :
    Tame (array dtype shape data) :=
  fresh_then _

theorem marked_tame (v : Value) : Tame (marked v) := by
  unfold marked
  split
  all_goals first | exact fresh_then _ | exact .pure _

theorem print_tame (text : String) : Tame (print text) := by
  apply Tame.update
  · intro before s
    exact congrArg (fun out : String => { s with out }) String.append_assoc
  · intro s
    exact ⟨rfl, rfl, rfl, rfl, Nat.le_refl _⟩

theorem now_tame (v : Value) : Tame (now v) :=
  .get (fun text s => by rw [behind_now]) fun s => .pure (s.now v)

theorem head_tame (v : Value) : Tame (head v) := .get (fun _ _ => rfl) fun s => .pure (s.head v)

/-- What is read of a store leaves it as it is. -/
theorem reading_tame (read : Store → Except Fault α) (unseen : ∀ text s, read (s.behind text) = read s) :
    Tame (fun s => ofExcept (read s) s) where
  still := by
    intro s
    unfold after
    dsimp only
    cases read s with
    | ok a => exact .refl s
    | error f => exact .refl s
  heedless := by
    intro text s
    dsimp only
    rw [unseen]
    exact (Tame.ofExcept (read s)).heedless text s

theorem shown_tame (v : Value) : Tame (shown v) :=
  reading_tame (fun s => (s.view v).showWith s.frame) fun text s => by rw [behind_view, behind_frame]

theorem shownPlain_tame (v : Value) : Tame (shownPlain v) :=
  reading_tame (fun s => (s.view v).showPlain s.frame) fun text s => by rw [behind_view, behind_frame]

theorem page_tame (v : Value) : Tame (page v) :=
  (reading_tame (fun s => (s.view v).docWith s.frame) fun text s => by
    rw [behind_view, behind_frame]).bind fun d => .pure d.pretty

/-! Names. -/

theorem share_tame (v : Value) : Tame (modify (·.share v)) :=
  .update (fun text s => s.behind_share text v) fun s => s.share_same v

theorem lookup_tame (env : Value) (name : String) : Tame (lookup env name) :=
  .get (fun _ _ => rfl) fun _ => (Tame.ofExcept _).bind fun v =>
    .ite ((share_tame v).bind fun _ => marked_tame v) (marked_tame v)

theorem frameOf_tame (env : Value) : Tame (frameOf env) := by
  unfold frameOf
  split
  · exact .pure _
  · exact .fault _

theorem bind_tame (id : Nat) (name : String) (v : Value) : Tame (Run.bind id name v) := by
  unfold Run.bind
  split
  · refine (head_tame v).bind fun v => .get (fun _ _ => rfl) fun _ => ?_
    refine (Tame.ofExcept _).bind fun frame => ?_
    apply Tame.update
    · intro text t
      exact congrArg (·.note (.overwritten id)) (t.behind_replaceNames text id frame)
    · intro t
      have same := t.replaceNames_same id frame
      exact ⟨same.stack, same.entered, same.tallies, same.deeds, same.marks⟩
  · refine .get (fun _ _ => rfl) fun _ => (Tame.ofExcept _).bind fun frame => ?_
    exact .update (fun text t => t.behind_change text id frame _) fun t => t.change_same id frame _

theorem writing_tame (writer : Writer) {x : Run α} (tame : Tame x) : Tame (writing writer x) where
  still := by
    intro s
    have inner := tame.still { s with writer }
    have outer : (writing writer x).after s = { x.after { s with writer } with writer := s.writer } := by
      simp only [after, writing]
      cases x { s with writer } <;> rfl
    rw [outer]
    exact ⟨inner.stack, inner.entered, inner.tallies, inner.deeds, inner.marks⟩
  heedless := tame.heedless.writing writer

theorem nameOf_tame (v : Value) : Tame (nameOf v) := by
  unfold nameOf
  split
  · exact .pure _
  · exact .fault _

theorem unbind_tame (id : Nat) (name : String) : Tame (unbind id name) :=
  .get (fun _ _ => rfl) fun _ => (Tame.ofExcept _).bind fun frame =>
    .update (fun text t => t.behind_change text id frame _) fun t => t.change_same id frame _

theorem newEnvironment_tame (path home : String) (outer : Value) :
    Tame (newEnvironment path home outer) where
  still := fun _ => ⟨rfl, rfl, rfl, rfl, Nat.le_succ _⟩
  heedless := fun _ _ => rfl

/-! Members. -/

theorem length_tame (v : Value) : Tame (length v) := (head_tame v).bind fun _ => .ofExcept _

theorem members_tame (v : Value) : Tame (members v) := by
  refine (head_tame v).bind fun v => (Tame.ofExcept _).bind fun members => ?_
  split
  · exact .mapM marked_tame members
  · exact .pure members

theorem truth_tame (v : Value) : Tame (truth v) := (head_tame v).bind fun _ => .ofExcept _

theorem shareTable_tame (o k v : Value) : Tame (shareTable o k v) := by
  unfold shareTable
  split
  · exact share_tame _
  · exact .pure _

theorem item_tame (o k : Value) : Tame (item o k) :=
  (head_tame o).bind fun _ => .get (fun _ _ => rfl) fun _ => (head_tame k).bind fun _ => (Tame.ofExcept _).bind fun v =>
    (shareTable_tame o k v).bind fun _ => marked_tame v

/-! Operators. -/

theorem binary_tame (op : BinaryOp) (a b : Value) : Tame (binary op a b) := by
  have given (v : Value) : Tame (if isShallow op a b then head v else now v) :=
    .ite (head_tame v) (now_tame v)
  exact (given a).bind fun _ => (given b).bind fun _ => fresh_tame.bind fun _ =>
    .get (fun text s => by rw [behind_reader]) fun _ => .ofExcept _

theorem incrementArray_tame (mark : Nat) (dtype : DType) (shape : List Nat) (data : List Value) :
    Tame (incrementArray mark dtype shape data) := by
  refine .get (fun text s => by rw [behind_reader]) fun s => (Tame.ofExcept _).bind fun grid => ?_
  exact .ite (Tame.bind (.update (fun _ _ => rfl) fun _ => ⟨rfl, rfl, rfl, rfl, Nat.le_refl _⟩) fun _ => .pure _) (.fault _)

theorem increment_tame (v : Value) : Tame (increment v) := by
  refine (now_tame v).bind fun v => ?_
  split
  · exact .fault _
  · exact incrementArray_tame _ _ _ _
  · exact (binary_tame .add _ _).recover fun f => .fault _

/-! Checks. -/

theorem isEqual_tame (actual expected : Value) : Tame (isEqual actual expected) := by
  refine (now_tame actual).bind fun a => (now_tame expected).bind fun b => .ite ?_ (.ofExcept _)
  exact (Tame.ofExcept _).bind fun _ => (Tame.ofExcept _).bind fun _ => .ofExcept _

theorem mismatch_tame (actual expected label : Value) : Tame (mismatch actual expected label) := by
  refine (now_tame label).bind fun _ => (Tame.ofExcept _).bind fun _ => ?_
  have worded (start : String) : Tame (do
      let e ← shown expected
      let a ← shown actual
      return Fault.mismatch actual expected label (start ++ "expected " ++ e ++ ", got " ++ a)) :=
    (shown_tame expected).bind fun _ => (shown_tame actual).bind fun _ => .pure _
  exact .ite ((binary_tame .add _ _).bind fun v => (shownPlain_tame v).bind worded)
    ((Tame.pure _).bind worded)

theorem assertEq_tame (actual expected label : Value) : Tame (assertEq actual expected label) :=
  (isEqual_tame actual expected).bind fun _ => .ite (.pure _)
    ((mismatch_tame actual expected label).bind fun f => .fault f)

theorem echo_tame (key x : Value) : Tame (echo key x) :=
  (print_tame _).bind fun _ => (Tame.ofExcept _).bind fun _ => (page_tame _).bind fun _ =>
    (print_tame _).bind fun _ => .pure x

theorem checkLabel_tame (name results label : Value) : Tame (checkLabel name results label) :=
  (truth_tame label).bind fun _ => .ite (.pure _)
    ((shownPlain_tame name).bind fun _ => (length_tame results).bind fun _ => .pure _)

theorem unpackPair_tame (vs : List Value) : Tame (unpackPair vs) := by
  unfold unpackPair
  split
  · exact .pure _
  · exact .ite (.fault _) (.fault _)

theorem pairOf_tame (entry : Value) : Tame (pairOf entry) := by
  unfold pairOf
  split
  all_goals first
    | exact (members_tame _).bind unpackPair_tame
    | exact .fault _

theorem labelsWhere_tame (passed : Bool) (results : Value) : Tame (labelsWhere passed results) := by
  refine (members_tame results).bind fun entries => Tame.bind (.mapM (fun entry => ?_) entries) fun _ =>
    .pure _
  exact (pairOf_tame entry).bind fun pair => (truth_tame pair.2).bind fun _ => .pure _

theorem count_tame (passed : Bool) (results : Value) : Tame (count passed results) :=
  (labelsWhere_tame passed results).bind fun _ => .pure _

theorem summary_tame (name results : Value) : Tame (summary name results) :=
  (count_tame true results).bind fun _ => (count_tame false results).bind fun _ =>
    (labelsWhere_tame false results).bind fun _ => (list_tame _).bind fun _ => dict_tame _

theorem closeRun_tame (name trace results : Value) : Tame (closeRun name trace results) :=
  (truth_tame trace).bind fun _ => .ite
    ((summary_tame name results).bind fun _ => (echo_tame _ _).discard) (.pure _)

/-! Attributes. -/

theorem computed?_tame (results : Value) (name : String) {x : Run Value}
    (computes : computed? results name = some x) : Tame x := by
  unfold computed? at computes
  split at computes
  · cases computes
    exact count_tame true results
  · cases computes
    exact count_tame false results
  · cases computes
    exact (count_tame false results).bind fun _ => binary_tame .equal _ _
  · cases computes

theorem missing_tame (v : Value) (name : String) : Tame (missing v name) := by
  unfold missing
  split
  · exact .ite (.fault _) (lookup_tame _ _)
  · rename_i results
    cases computes : computed? results name with
    | some x => exact computed?_tame results name computes
    | none => exact .fault _
  · exact .fault _

theorem getAttribute_tame (o : Value) (name : String) : Tame (getAttribute o name) := by
  refine .get (fun _ _ => rfl) fun s => ?_
  cases s.attribute? o name with
  | some v => exact .ite ((share_tame v).bind fun _ => marked_tame v) (marked_tame v)
  | none => exact missing_tame o name

theorem hasAttribute_tame (o : Value) (name : String) : Tame (hasAttribute o name) := by
  refine ((getAttribute_tame o name).discard.bind fun _ => .pure _).recover fun f => ?_
  split
  · exact .pure _
  · exact .fault _

theorem give_tame (o : Value) (name : String) (v : Value) : Tame (give o name v) := by
  unfold give
  split
  · exact .update (fun _ _ => rfl) fun _ => ⟨rfl, rfl, rfl, rfl, Nat.le_refl _⟩
  · exact .fault _

theorem setAttribute_tame {o : Value} (other : ∀ mark d c, o ≠ .tally mark d c) (name : String)
    (v : Value) : Tame (setAttribute o name v) := by
  unfold setAttribute
  split
  · exact absurd rfl (other _ _ _)
  · exact bind_tame _ name v
  · exact give_tame o name v

/-! Ceilings. -/

theorem stackDepth_tame : Tame stackDepth := .get (fun _ _ => rfl) fun _ => .pure _

theorem recursionLimit_tame : Tame recursionLimit := .get (fun _ _ => rfl) fun _ => .pure _

theorem manager_tame (limit : Value) : Tame (manager limit) := fresh_then _

theorem headroom_tame (frames : Value) : Tame (headroom frames) :=
  stackDepth_tame.bind fun _ => (binary_tame .add _ _).bind manager_tame

end Run

namespace Collection

open Run

theorem setItems_tame (mark : Nat) (items : List Value) : Tame (setItems mark items) :=
  .update (fun _ _ => rfl) fun _ => ⟨rfl, rfl, rfl, rfl, Nat.le_refl _⟩

theorem setEntries_tame (mark : Nat) (entries : List (Value × Value)) :
    Tame (setEntries mark entries) := by
  apply Tame.update
  · intro text s
    have known : (s.behind text).namespaces = s.namespaces := rfl
    rw [known]
    cases s.namespaces.lookup mark with
    | some id =>
        exact congrArg (·.note (.overwritten id))
          (s.behind_setFrame text id { s.frame id with bindings := Frame.bindingsOf entries })
    | none => rfl
  · intro s
    dsimp only
    split
    · rename_i id _
      have same := s.setFrame_same id { s.frame id with bindings := Frame.bindingsOf entries }
      exact ⟨same.stack, same.entered, same.tallies, same.deeds, same.marks⟩
    · exact ⟨rfl, rfl, rfl, rfl, Nat.le_refl _⟩

theorem behind_actOnList (text : String) (s : Store) : actOnList (s.behind text) = actOnList s := by
  funext mark name items members args
  simp only [actOnList, behind_head, behind_now, behind_frame]

theorem behind_actOnTuple (text : String) (s : Store) : actOnTuple (s.behind text) = actOnTuple s := by
  funext name members args
  simp only [actOnTuple, behind_now]

theorem behind_actOnDict (text : String) (s : Store) : actOnDict (s.behind text) = actOnDict s := by
  funext mark name entries args
  simp only [actOnDict, behind_frame]

theorem call?_tame (owner : Value) (name : String) (args : List Value) (named : Named) {x : Run Value}
    (calls : call? owner name args named = some x) : Tame x := by
  unfold call? at calls
  simp only [Option.bind_eq_bind, Option.bind_eq_some_iff] at calls
  obtain ⟨k, -, calls⟩ := calls
  -- The kind of the owner only tells what its methods take.
  split at calls
  all_goals
    simp only [Option.bind_eq_some_iff, Option.pure_def, Option.some.injEq, reduceCtorEq,
      false_and, exists_false] at calls
  all_goals
    obtain ⟨takes, -, rfl⟩ := calls
    refine (Tame.ofExcept _).bind fun _ => fresh_tame.bind fun copied => .get ?_ fun s => ?_
    · intro text s
      simp only [behind_head, behind_now, behind_actOnList, behind_actOnTuple, behind_actOnDict]
    split
    · refine (Tame.ofExcept _).bind fun outcome => ?_
      rcases outcome with ⟨_ | items, result⟩
      · exact .pure _
      · exact (setItems_tame _ items).bind fun _ => .pure _
    · exact (Tame.ofExcept _).bind fun _ => .pure _
    · refine (Tame.ofExcept _).bind fun outcome => ?_
      rcases outcome with ⟨_ | entries, result⟩
      · exact .pure _
      · exact (setEntries_tame _ entries).bind fun _ => .pure _
    · exact .pure _

end Collection

namespace Calculus

open Run

theorem checkKeys_tame (names : List Value) :
    Tame (forIn names PUnit.unit fun (name : Value) _ => do
      Run.ofExcept name.checkKey
      return ForInStep.yield PUnit.unit : Run PUnit) := by
  induction names with
  | nil => exact .pure _
  | cons name names ih =>
      simp only [List.forIn_cons, bind_assoc, pure_bind]
      exact (Tame.ofExcept _).bind fun _ => ih

theorem newProcedure_tame (code env : Value) : Tame (newProcedure code env) := by
  refine (item_tame code _).bind fun params => (members_tame params).bind fun names => ?_
  refine (checkKeys_tame names).bind fun _ => (length_tame params).bind fun count => ?_
  exact .ite ((shownPlain_tame params).bind fun _ => .fault _) (fresh_then _)

theorem lambda_tame (body params env : Value) : Tame (lambda body params env) := by
  have made (params : Value) : Tame (do
      let code ← dict [(.str "body", body), (.str "parameters", params)]
      newProcedure code env) :=
    (dict_tame _).bind fun code => newProcedure_tame code env
  exact (truth_tame params).bind fun _ => .ite ((Tame.pure params).bind made)
    ((list_tame []).bind made)

theorem wrongCount_tame (proc params args : Value) (expected given : Nat) :
    Tame (wrongCount proc params args expected given) :=
  (shownPlain_tame args).bind fun _ => (shownPlain_tame proc).bind fun _ =>
    (shownPlain_tame params).bind fun _ => .pure _

theorem callFrame_tame (params closed : Value) : Tame (callFrame params closed) :=
  (truth_tame params).bind fun _ => .ite (newEnvironment_tame _ _ _) (.pure _)

theorem echoEval_tame (expr env tag : Value) : Tame (echoEval expr env tag) := by
  apply Tame.get
  · intro text s
    simp only [behind_view, behind_frame]
  · intro s
    exact (Tame.ofExcept _).bind fun _ => (Tame.ofExcept _).bind fun _ => (Tame.ofExcept _).bind fun _ =>
      print_tame _

theorem define_tame (sym v env : Value) : Tame (define sym v env) :=
  (frameOf_tame env).bind fun _ => (nameOf_tame sym).bind fun _ => (bind_tame _ _ v).bind fun _ =>
    .pure v

end Calculus

namespace FixedPoint

open Run

theorem refuse_tame (args : List Value) (named : Named) : Tame (refuse args named) :=
  (tuple_tame _).bind fun _ => (shown_tame _).bind fun _ =>
    (Tame.mapM (fun entry => (shown_tame entry.2).bind fun _ => .pure _) named).bind fun _ => .fault _

theorem counting_tame (generator tally : Value) : Tame (counting generator tally) :=
  .get (fun _ _ => rfl) fun _ => fresh_then _

theorem adapter_tame (code : Value) : Tame (adapter code) := .get (fun _ _ => rfl) fun _ => fresh_then _

end FixedPoint

namespace Kind

open Run

theorem listed_tame (v : Option Value) : Tame (listed v) := by
  cases v with
  | some v => exact .pure v
  | none => exact list_tame []

theorem makeText_tame (values : List (Option Value)) : Tame (makeText values) := by
  unfold makeText
  split
  · exact .pure _
  · exact (shownPlain_tame _).bind fun _ => .pure _
  · exact .fault _
  · exact .fault _
  · exact .pure _

end Kind

namespace Method

open Run

theorem binding_tame (env name : Value) : Tame (Method.binding env name) := by
  unfold Method.binding
  split
  · exact item_tame _ _
  · exact (nameOf_tame name).bind fun _ => lookup_tame _ _

theorem equality_tame (owner other : Value) : Tame (equality owner other) :=
  .ite (binary_tame .equal _ _) (.pure _)

end Method

namespace Form

open Run

theorem known_tame (name : String) : Tame (known name) := by
  unfold known
  refine .ite (.pure _) ?_
  split
  · exact .pure _
  · exact .pure _
  · exact .fault _

theorem resolve_tame (scope : Scope) (name : String) : Tame (resolve scope name) := by
  unfold resolve
  split
  · exact .pure _
  · refine .get (fun _ _ => rfl) fun s => ?_
    split
    · exact .pure _
    · exact known_tame name

theorem defined_tame (name : String) (v : Value) :
    Tame (modify fun s : Store => { s with session := s.session.assign name v }) :=
  .update (fun _ _ => rfl) fun _ => ⟨rfl, rfl, rfl, rfl, Nat.le_refl _⟩

theorem literal_tame (l : Literal) : Tame (literal l) := by
  unfold literal
  split
  · exact fresh_then _
  · exact .pure _

theorem progression_tame (args : List Value) : Tame (progression args) := by
  refine (Tame.ofExcept _).bind fun bounds => ?_
  split
  · exact fresh_then _
  · exact fresh_then _
  · exact .ite (.fault _) (fresh_then _)
  · exact .fault _
  · exact .fault _

theorem behind_reading (text : String) (s : Store) : reading (s.behind text) = reading s := by
  simp only [reading, behind_view, behind_frame]

theorem gridding_tame (v : Value) (dtype : Option String) : Tame (gridding (pure v) dtype) := by
  refine (Tame.pure v).bind fun v => (now_tame v).bind fun v => ?_
  have made (requested : Option DType) : Tame (do
      let grid ← Run.ofExcept (Grid.make (reading (← get)) requested v)
      array grid.dtype grid.shape grid.data) :=
    .get (fun text s => by rw [behind_reading]) fun _ => (Tame.ofExcept _).bind fun grid =>
      array_tame _ _ _
  cases dtype with
  | none => exact (Tame.pure none).bind made
  | some name =>
      dsimp only
      cases Grid.dtypeOfName? name with
      | some d => exact (Tame.pure _).bind made
      | none => exact (Tame.fault _).bind made

end Form

end Knot
