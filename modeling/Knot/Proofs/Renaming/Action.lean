import Knot.Proofs.Renaming.Access

/-!
Checks, ceilings, collections and the making of values, in an image. None of these calls back into a
program.
-/

namespace Knot.Run

open Renaming

variable {r : Renaming}

/-! Adding one in place. -/

theorem addedInPlace_bare {f f' : Fault} (bare : f'.bare = f.bare) :
    (addedInPlace f').bare = (addedInPlace f).bare := by
  cases f <;> cases f' <;> simp_all [Fault.bare, addedInPlace]

theorem contents_equi (mark : Nat) (items : List Value) :
    Equi r (fun _ : Unit => ())
      (modify fun s => { s with contents := s.contents.assign mark items })
      (modify fun s =>
        { s with contents := s.contents.assign (r.mark mark) (items.map (Value.rename r)) }) := by
  refine .update (fun _ => ⟨Nat.le_refl _, Nat.le_refl _, rfl, .still rfl rfl rfl⟩) fun t s image _ => ?_
  refine ⟨⟨image.frames, image.tallies, ?_, image.tables, image.given, image.namespaces,
    image.entered, image.session, image.stack, image.out⟩, rfl, rfl, Kept.refl _, fun _ _ => rfl⟩
  rw [image.contents]
  exact assign_of_injective r.mark_injective (List.map (Value.rename r)) t.contents mark items

theorem appended_equi (mark : Nat) (items : List Value) (entry : Value) :
    Equi r (fun _ : Unit => ())
      (modify fun s =>
        { s with contents := s.contents.assign mark (s.items mark items ++ [entry]) })
      (modify fun s =>
        { s with
          contents := s.contents.assign (r.mark mark)
            (s.items (r.mark mark) (items.map (Value.rename r)) ++ [entry.rename r]) }) := by
  refine .update (fun _ => ⟨Nat.le_refl _, Nat.le_refl _, rfl, .still rfl rfl rfl⟩) fun t s image _ => ?_
  refine ⟨⟨image.frames, image.tallies, ?_, image.tables, image.given, image.namespaces,
    image.entered, image.session, image.stack, image.out⟩, rfl, rfl, Kept.refl _, fun _ _ => rfl⟩
  have grown : s.items (r.mark mark) (items.map (Value.rename r)) ++ [entry.rename r] =
      (t.items mark items ++ [entry]).map (Value.rename r) := by
    rw [image.items, List.map_append, List.map_cons, List.map_nil]
  rw [grown, image.contents]
  exact assign_of_injective r.mark_injective (List.map (Value.rename r)) t.contents mark _

theorem incrementArray_equi (mark : Nat) (dtype : DType) (shape : List Nat) (data : List Value) :
    Equi r (Value.rename r) (incrementArray mark dtype shape data)
      (incrementArray (r.mark mark) dtype shape (data.map (Value.rename r))) := by
  have stored (g : Grid) : Equi r (Value.rename r)
      (if g.dtype = dtype ∨ dtype = .object then do
          modify fun s => { s with contents := s.contents.assign mark g.data }
          return Value.array mark dtype shape g.data
        else fault (.grid (.cannotStore "add" (Grid.dtypeName g.dtype) (Grid.dtypeName dtype))))
      (if g.dtype = dtype ∨ dtype = .object then do
          modify fun s => { s with contents := s.contents.assign (r.mark mark) (g.rename r).data }
          return Value.array (r.mark mark) dtype shape (g.rename r).data
        else fault (.grid (.cannotStore "add" (Grid.dtypeName g.dtype) (Grid.dtypeName dtype)))) := by
    split
    · exact (contents_equi mark g.data).bind fun _ => by
        simpa using Equi.pure (f := Value.rename r) (Value.array mark dtype shape g.data)
    · exact .fault rfl
  refine Equi.get (fun t => .bind (.ofExcept _) fun g => (stored g).grows) fun t s image => ?_
  refine (Equi.ofExcept (f := Grid.rename r) ?_).bind stored
  have added := Grid.arithmetic_rename (r := r) (fun op a b =>
    r.mark_zero ▸ Value.operate_rename image.reader 0 op a b) .add (.array mark dtype shape data) (.int 1)
  simpa only [Value.rename, Value.renameAll_eq] using added

theorem increment_equi (v : Value) : Equi r (Value.rename r) (increment v) (increment (v.rename r)) := by
  have added (v : Value) : Equi r (Value.rename r)
      (recover (binary .add v (.int 1)) fun f => fault (addedInPlace f))
      (recover (binary .add (v.rename r) (.int 1)) fun f => fault (addedInPlace f)) :=
    (binary_equi .add v (.int 1)).recover fun e e' bare => .fault (addedInPlace_bare bare)
  refine (now_equi v).bind fun v => ?_
  cases v with
  | list => exact .fault rfl
  | array mark dtype shape data =>
      simpa only [Value.rename, Value.renameAll_eq] using incrementArray_equi mark dtype shape data
  | _ => exact added _

/-! Checks. -/

theorem isEqual_equi (a b : Value) : Equi r id (isEqual a b) (isEqual (a.rename r) (b.rename r)) := by
  refine (now_equi a).bind fun a => (now_equi b).bind fun b => ?_
  simp only [Value.isArray_rename]
  split
  · refine (Equi.ofExcept (Grid.ofValue_rename r a)).bind fun x =>
      (Equi.ofExcept (Grid.ofValue_rename r b)).bind fun y => .ofExcept ?_
    rw [Grid.equal_rename (Value.equal_rename r), id_map]
  · exact .ofExcept (by rw [Value.equal_rename, id_map])

theorem mismatch_equi (actual expected label : Value) :
    Equi r (Fault.rename r) (mismatch actual expected label)
      (mismatch (actual.rename r) (expected.rename r) (label.rename r)) := by
  have worded (start : String) : Equi r (Fault.rename r)
      (do
        let e ← shown expected
        let a ← shown actual
        return .mismatch actual expected label (start ++ "expected " ++ e ++ ", got " ++ a))
      (do
        let e ← shown (expected.rename r)
        let a ← shown (actual.rename r)
        return .mismatch (actual.rename r) (expected.rename r) (label.rename r)
          (start ++ "expected " ++ e ++ ", got " ++ a)) :=
    (shown_equi expected).bind fun e => (shown_equi actual).bind fun a =>
      .pure (f := Fault.rename r) (.mismatch actual expected label _)
  refine (now_equi label).bind fun now => ?_
  refine (Equi.ofExcept (f := id) (by rw [Value.truth_rename, id_map])).bind fun labelled => ?_
  dsimp only [id]
  split
  · exact (binary_equi .add label (.str ": ")).bind fun v => (shownPlain_equi v).bind worded
  · exact worded ""

theorem assertEq_equi (actual expected label : Value) :
    Equi r (Value.rename r) (assertEq actual expected label)
      (assertEq (actual.rename r) (expected.rename r) (label.rename r)) := by
  refine (isEqual_equi actual expected).bind fun same => ?_
  dsimp only [id]
  split
  · exact .pure actual
  · exact (mismatch_equi actual expected label).bind fun f => .fault (Fault.bare_rename r f)

theorem echo_equi (key x : Value) :
    Equi r (Value.rename r) (echo key x) (echo (key.rename r) (x.rename r)) := by
  have paged := page_equi (r := r) (.dict 0 [(key, x)])
  simp only [Value.rename, r.mark_zero, Value.renameEntries_eq, List.map_cons, List.map_nil,
    Renaming.entry_mk] at paged
  refine (print_equi "\n").bind fun _ => ?_
  refine (Equi.ofExcept (f := id) (by rw [Value.checkKey_rename, id_map])).bind fun _ => ?_
  exact paged.bind fun text => (print_equi _).bind fun _ => .pure x

theorem checkLabel_equi (name results label : Value) :
    Equi r (Value.rename r) (checkLabel name results label)
      (checkLabel (name.rename r) (results.rename r) (label.rename r)) := by
  refine (truth_equi label).bind fun labelled => ?_
  dsimp only [id]
  split
  · exact .pure label
  · exact (shownPlain_equi name).bind fun name => (length_equi results).bind fun n =>
      .pure (f := Value.rename r) (Value.str _)

theorem summary_equi (name results : Value) :
    Equi r (Value.rename r) (summary name results) (summary (name.rename r) (results.rename r)) := by
  refine (count_equi true results).bind fun passed => (count_equi false results).bind fun failed =>
    (labelsWhere_equi false results).bind fun labels => (list_equi labels).bind fun failures => ?_
  simpa only [List.map_cons, List.map_nil, Renaming.entry_mk, Value.rename] using
    dict_equi (r := r) [(.str "run", name), (.str "passed", passed), (.str "failed", failed),
      (.str "failures", failures)]

theorem closeRun_equi (name trace results : Value) :
    Equi r (fun _ : Unit => ()) (closeRun name trace results)
      (closeRun (name.rename r) (trace.rename r) (results.rename r)) := by
  refine (truth_equi trace).bind fun traced => ?_
  dsimp only [id]
  split
  · exact (summary_equi name results).bind fun v =>
      (echo_equi (.str "CheckRun") v).map fun _ => rfl
  · exact .pure ()

/-! Ceilings. -/

theorem stackDepth_equi : Equi r (Value.rename r) stackDepth stackDepth :=
  .get (fun _ => .pure _) fun t s image => by
    rw [image.stack]
    exact .pure (f := Value.rename r) (Value.int t.stack.depth)

theorem recursionLimit_equi : Equi r (Value.rename r) recursionLimit recursionLimit :=
  .get (fun _ => .pure _) fun t s image => by
    rw [image.stack]
    exact .pure (f := Value.rename r) (Value.int t.stack.limit)

theorem setLimit_equi (limit : Nat) : Equi r (fun _ : Unit => ()) (setLimit limit) (setLimit limit) :=
  .update (fun _ => ⟨Nat.le_refl _, Nat.le_refl _, rfl, .still rfl rfl rfl⟩) fun t s image _ =>
    ⟨⟨image.frames, image.tallies, image.contents, image.tables, image.given, image.namespaces,
      image.entered, image.session, by rw [image.stack], image.out⟩, rfl, rfl, Kept.refl _, fun _ _ => rfl⟩

theorem limitOf_rename (depth : Nat) (v : Value) : limitOf depth (v.rename r) = limitOf depth v := by
  simp only [limitOf, Grid.index?_rename, Value.operandName_rename]

theorem manager_equi (limit : Value) :
    Equi r (Value.rename r) (manager limit) (manager (limit.rename r)) :=
  Equi.fresh.bind fun mark => .pure (f := Value.rename r) (Value.manager mark limit)

theorem headroom_equi (frames : Value) :
    Equi r (Value.rename r) (headroom frames) (headroom (frames.rename r)) :=
  stackDepth_equi.bind fun depth => (binary_equi .add depth frames).bind manager_equi

theorem entered_equi (mark : Nat) :
    Equi r (fun _ : Unit => ())
      (modify fun s => { s with entered := s.entered.assign mark s.stack.limit })
      (modify fun s => { s with entered := s.entered.assign (r.mark mark) s.stack.limit }) := by
  refine .update (fun _ => ⟨Nat.le_refl _, Nat.le_refl _, rfl, .still rfl rfl rfl⟩) fun t s image _ => ?_
  refine ⟨⟨image.frames, image.tallies, image.contents, image.tables, image.given, image.namespaces,
    ?_, image.session, image.stack, image.out⟩, rfl, rfl, Kept.refl _, fun _ _ => rfl⟩
  rw [image.entered, image.stack]
  exact assign_of_injective r.mark_injective id t.entered mark t.stack.limit

theorem enter_equi (mark : Nat) (limit : Value) :
    Equi r (Value.rename r) (enter mark limit) (enter (r.mark mark) (limit.rename r)) := by
  have rest (depth : Nat) : Equi r (Value.rename r)
      (do
        modify fun s => { s with entered := s.entered.assign mark s.stack.limit }
        setLimit (← ofExcept (limitOf depth limit))
        return limit)
      (do
        modify fun s => { s with entered := s.entered.assign (r.mark mark) s.stack.limit }
        setLimit (← ofExcept (limitOf depth (limit.rename r)))
        return limit.rename r) :=
    (entered_equi mark).bind fun _ =>
      (Equi.ofExcept (f := id) (by rw [limitOf_rename, id_map])).bind fun n =>
        (setLimit_equi n).bind fun _ => .pure limit
  refine .get (fun t => ?_) fun t s image => ?_
  · split
    · exact .stop _
    · exact (rest t.stack.depth).grows
  · rw [image.entered, lookup_of_injective r.mark_injective, Option.isSome_map, image.stack]
    split
    · exact .fault (by rw [← Value.lacks_rename r]; rfl)
    · exact rest t.stack.depth

theorem leave_equi (mark : Nat) :
    Equi r (fun _ : Unit => ()) (leave mark) (leave (r.mark mark)) := by
  refine .get (fun t => ?_) fun t s image => ?_
  · split
    · exact (setLimit_equi (r := r) _).grows
    · exact .pure _
  · rw [image.entered, lookup_of_injective r.mark_injective]
    cases t.entered.lookup mark with
    | none => exact .pure ()
    | some before => exact setLimit_equi before

end Knot.Run
