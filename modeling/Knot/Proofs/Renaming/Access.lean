import Knot.Proofs.Renaming.Run

/-!
What runs do with the store, in an image: reading values as they are, looking names up and binding
them, members and items, attributes, operators.
-/

namespace Knot.Run

open Renaming

variable {r : Renaming}

/-! Making values. -/

theorem float_equi (x : Float) : Equi r (Value.rename r) (float x) (float x) :=
  Equi.fresh.bind fun m => .pure (f := Value.rename r) (Value.float m x)

theorem list_equi (items : List Value) :
    Equi r (Value.rename r) (list items) (list (items.map (·.rename r))) :=
  Equi.fresh.bind fun m => by simpa using Equi.pure (f := Value.rename r) (Value.list m items)

theorem tuple_equi (items : List Value) :
    Equi r (Value.rename r) (tuple items) (tuple (items.map (·.rename r))) :=
  Equi.fresh.bind fun m => by simpa using Equi.pure (f := Value.rename r) (Value.tuple m items)

theorem dict_equi (entries : List (Value × Value)) :
    Equi r (Value.rename r) (dict entries) (dict (entries.map r.entry)) :=
  Equi.fresh.bind fun m => by simpa using Equi.pure (f := Value.rename r) (Value.dict m entries)

theorem did_image {t s : Store} (image : Image r t s) (d d' : Deed) : Image r (t.did d) (s.did d') :=
  ⟨image.frames, image.tallies, image.contents, image.tables, image.given, image.namespaces,
    image.entered, image.session, image.stack, image.out⟩

theorem did_later (t : Store) (d : Deed) : Later t (t.did d) :=
  ⟨Nat.le_refl _, Nat.le_refl _, rfl, .still rfl rfl rfl⟩

theorem tell_equi (d d' : Deed) : Equi r (fun _ : Unit => ()) (tell d) (tell d') :=
  .update (did_later · d) fun _ _ image _ => ⟨did_image image d d', rfl, rfl, Kept.refl _, fun _ _ => rfl⟩

/-- A tally that values mention is given counts. -/
theorem tallies_follows (mark : Nat) (counts : Value × Value) {t s : Store} (image : Image r t s) :
    Follows r t { t with tallies := t.tallies.assign mark counts } s
      { s with tallies := s.tallies.assign (r.mark mark) (r.entry counts) } := by
  refine ⟨⟨image.frames, ?_, image.contents, image.tables, image.given, image.namespaces,
    image.entered, image.session, image.stack, image.out⟩, rfl, rfl, Kept.refl _, fun m own => ?_⟩
  · dsimp only
    rw [Bindings.filter_assign (p := fun m => !r.own.contains m) _ _ (r.not_own mark), image.tallies]
    exact assign_of_injective r.mark_injective r.entry t.tallies mark counts
  · exact Bindings.lookup_assign_of_ne _ _ (r.mark_ne_own own mark)

theorem tally_equi (d c : Value) :
    Equi r (Value.rename r) (tally d c) (tally (d.rename r) (c.rename r)) := by
  refine Equi.fresh.bind fun mark => Equi.bind (f := fun _ : Unit => ()) ?_ fun _ =>
    .pure (Value.tally mark d c)
  exact .update (fun _ => ⟨Nat.le_refl _, Nat.le_refl _, rfl, .still rfl rfl rfl⟩) fun t s image _ =>
    tallies_follows mark (d, c) image

theorem array_equi (dtype : DType) (shape : List Nat) (data : List Value) :
    Equi r (Value.rename r) (array dtype shape data) (array dtype shape (data.map (·.rename r))) :=
  Equi.fresh.bind fun m => by
    simpa using Equi.pure (f := Value.rename r) (Value.array m dtype shape data)

theorem range_equi (start stop step : Int) :
    Equi r (Value.rename r) (do return Value.range (← fresh) start stop step)
      (do return Value.range (← fresh) start stop step) :=
  Equi.fresh.bind fun m => .pure (f := Value.rename r) (Value.range m start stop step)

theorem marked_equi (v : Value) : Equi r (Value.rename r) (marked v) (marked (v.rename r)) := by
  have kept : Equi r (Value.rename r) (pure v) (pure (v.rename r)) := Equi.pure v
  cases v with
  | float mark x | list mark items | tuple mark items | dict mark entries
  | range mark start stop step | array mark dtype shape data | method mark owner m =>
      cases mark with
      | zero =>
          simp only [Value.rename, r.mark_zero, Value.renameAll_eq, Value.renameEntries_eq]
          first
          | exact float_equi x
          | exact list_equi items
          | exact tuple_equi items
          | exact dict_equi entries
          | exact range_equi start stop step
          | exact array_equi dtype shape data
          | exact Equi.fresh.bind fun n => .pure (f := Value.rename r) (Value.method n owner m)
      | succ mark =>
          obtain ⟨n, renamed⟩ : ∃ n, r.mark (mark + 1) = n + 1 :=
            Nat.exists_eq_succ_of_ne_zero (by simp)
          simp only [Value.rename, renamed] at kept ⊢
          exact kept
  | _ => exact kept

theorem print_equi (text : String) : Equi r id (print text) (print text) :=
  .update (fun _ => ⟨Nat.le_refl _, Nat.le_refl _, rfl, .still rfl rfl rfl⟩) fun t s image _ =>
    ⟨⟨image.frames, image.tallies, image.contents, image.tables, image.given, image.namespaces,
      image.entered, image.session, image.stack, by rw [image.out]⟩, rfl, rfl, Kept.refl _, fun _ _ => rfl⟩

theorem now_equi (v : Value) : Equi r (Value.rename r) (now v) (now (v.rename r)) :=
  .get (fun _ => .pure _) fun _ _ image => by simpa only [image.now] using Equi.pure _

theorem head_equi (v : Value) : Equi r (Value.rename r) (head v) (head (v.rename r)) :=
  .get (fun _ => .pure _) fun _ _ image => by simpa only [image.head] using Equi.pure _

/-! Names. -/

theorem share_follows (v : Value) {t s : Store} (image : Image r t s) :
    Follows r t (t.share v) s (s.share (v.rename r)) := by
  have kept : Follows r t t s s := Equi.follows_refl image
  cases v with
  | dict mark entries =>
      simp only [Value.rename, Store.share, Store.shareMark, Store.frameOfMark?,
        image.frames.findIdx?_mark]
      cases t.frames.findIdx? (·.mark == mark) with
      | none => exact kept
      | some id =>
          refine ⟨⟨image.frames, image.tallies, image.contents, image.tables, image.given, ?_,
            image.entered, image.session, image.stack, image.out⟩, rfl, rfl, Kept.refl _, fun _ _ => rfl⟩
          simp only [Option.map_some, image.namespaces]
          exact assign_of_injective r.mark_injective r.frame t.namespaces mark id
  | _ => exact kept

theorem share_later (v : Value) (t : Store) : Later t (t.share v) := by
  cases v with
  | dict mark entries =>
      simp only [Store.share, Store.shareMark]
      split <;> exact ⟨Nat.le_refl _, Nat.le_refl _, rfl, .still rfl rfl rfl⟩
  | _ => exact .refl t

theorem share_equi (v : Value) :
    Equi r id (modify (·.share v) : Run Unit) (modify (·.share (v.rename r))) :=
  .update (share_later v) fun _ _ image _ => share_follows v image

/-- A name's value, of which the dictionary of a frame's names goes on standing for them. -/
theorem shared_equi (name : String) (v : Value) :
    Equi r (Value.rename r)
      (do
        if name = "__dict__" then modify (·.share v)
        marked v)
      (do
        if name = "__dict__" then modify (·.share (v.rename r))
        marked (v.rename r)) := by
  dsimp only
  split
  · exact (share_equi v).bind fun _ => marked_equi v
  · exact marked_equi v

theorem lookup_equi (env : Value) (name : String) :
    Equi r (Value.rename r) (lookup env name) (lookup (env.rename r) name) :=
  .read (fun _ _ image => image.lookup name env) (shared_equi name)

theorem frameOf_equi (env : Value) : Equi r r.frame (frameOf env) (frameOf (env.rename r)) := by
  have lacking : Equi r r.frame (fault (env.lacks "φ")) (fault ((env.rename r).lacks "φ")) :=
    .fault (by rw [Value.lacks_rename])
  cases env with
  | environment id outer => exact .pure id
  | _ => exact lacking

theorem nameOf_equi (v : Value) : Equi r id (nameOf v) (nameOf (v.rename r)) := by
  have refused : Equi r id (fault (.type (.attributeName v.operandName)) : Run String)
      (fault (.type (.attributeName (v.rename r).operandName))) :=
    .fault (by rw [Value.operandName_rename])
  cases v with
  | str name => exact .pure name
  | _ => exact refused

theorem setFrame_follows (id : Nat) (frame : Frame) {t s : Store} (image : Image r t s) :
    Follows r t (t.setFrame id frame) s (s.setFrame (r.frame id) (frame.rename r)) := by
  have frames := image.frames.set id frame
  have kept : Kept r s.frames (s.frames.setIfInBounds (r.frame id) (frame.rename r)) :=
    FramesImage.kept_set id (frame.rename r)
  simp only [Store.setFrame, Frame.rename_mark, image.lookup_namespaces, Option.isNone_map]
  split
  · exact ⟨⟨frames, image.tallies, image.contents, image.tables, image.given, image.namespaces,
      image.entered, image.session, image.stack, image.out⟩, rfl, by simp, kept, fun _ _ => rfl⟩
  · have step (other : Frame) :
        (if (other.rename r).mark == r.mark frame.mark then
          { other.rename r with bindings := (frame.rename r).bindings } else other.rename r) =
        (if other.mark == frame.mark then
          { other with bindings := frame.bindings } else other).rename r := by
      simp only [Frame.rename_mark, beq_of_injective r.mark_injective]
      split <;> rfl
    have still (i : Nat) (below : i < (s.frames.setIfInBounds (r.frame id) (frame.rename r)).size)
        (outside : ∀ j, r.frame j ≠ i) :
        (fun other : Frame => if other.mark == r.mark frame.mark then
          { other with bindings := (frame.rename r).bindings } else other)
          (frameAt (s.frames.setIfInBounds (r.frame id) (frame.rename r)) i) =
        frameAt (s.frames.setIfInBounds (r.frame id) (frame.rename r)) i :=
      if_neg (by simpa using frames.apart i below outside frame.mark)
    exact ⟨⟨frames.map step still, image.tallies, image.contents, image.tables, image.given,
      image.namespaces, image.entered, image.session, image.stack, image.out⟩, rfl, by simp,
      kept.trans (FramesImage.kept_map still), fun _ _ => rfl⟩

theorem note_follows {t t' s s' : Store} (e e' : Event) (follows : Follows r t t' s s') :
    Follows r t (t'.note e) s (s'.note e') :=
  have image := follows.image
  ⟨⟨image.frames, image.tallies, image.contents, image.tables, image.given, image.namespaces,
    image.entered, image.session, image.stack, image.out⟩, follows.marks, follows.frames,
    follows.kept, follows.tallies⟩

theorem change_follows (id : Nat) (frame : Frame) (e e' : Event) {t s : Store} (image : Image r t s) :
    Follows r t (t.change id frame e) s (s.change (r.frame id) (frame.rename r) e') :=
  note_follows _ _ (setFrame_follows id frame image)

theorem setFrame_nextMark (id : Nat) (frame : Frame) (t : Store) :
    (t.setFrame id frame).nextMark = t.nextMark := by
  unfold Store.setFrame
  dsimp only
  split <;> rfl

theorem setFrame_size (id : Nat) (frame : Frame) (t : Store) :
    (t.setFrame id frame).frames.size = t.frames.size := by
  unfold Store.setFrame
  dsimp only
  split <;> simp

theorem setFrame_stack (id : Nat) (frame : Frame) (t : Store) :
    (t.setFrame id frame).stack = t.stack := by
  unfold Store.setFrame
  dsimp only
  split <;> rfl

theorem change_later {id : Nat} {frame : Frame} {e : Event} {t : Store}
    (told : Told t.frames.size t (t.change id frame e)) : Later t (t.change id frame e) where
  marks := (setFrame_nextMark id frame t).ge
  frames := (setFrame_size id frame t).ge
  room := congrArg Stack.room (setFrame_stack id frame t)
  told := told

/-- The names of a frame change by way of their dictionary. -/
theorem overwritten_later (id : Nat) (frame : Frame) (t : Store) :
    Later t ((t.setFrame id frame).note (.overwritten id)) where
  marks := (setFrame_nextMark id frame t).ge
  frames := (setFrame_size id frame t).ge
  room := congrArg Stack.room (setFrame_stack id frame t)
  told := .overwritten id (Store.setFrame_journal id frame t) (Store.setFrame_writer id frame t)

theorem shareMark_follows (mark : Nat) {t s : Store} (image : Image r t s) :
    Follows r t (t.shareMark mark) s (s.shareMark (r.mark mark)) := by
  simpa [Store.share] using share_follows (.dict mark []) image

theorem replaceNames_follows (id : Nat) (frame : Frame) {t s : Store} (image : Image r t s) :
    Follows r t (t.replaceNames id frame) s (s.replaceNames (r.frame id) (frame.rename r)) := by
  have frames := image.frames.set id frame
  have kept : Kept r s.frames (s.frames.setIfInBounds (r.frame id) (frame.rename r)) :=
    FramesImage.kept_set id (frame.rename r)
  have replaced : Follows r t
      { t with
        tables := t.tables.assign (t.frame id).mark (t.frame id).entries
        namespaces := t.namespaces.erase (t.frame id).mark
        frames := t.frames.setIfInBounds id frame } s
      { s with
        tables := s.tables.assign (s.frame (r.frame id)).mark (s.frame (r.frame id)).entries
        namespaces := s.namespaces.erase (s.frame (r.frame id)).mark
        frames := s.frames.setIfInBounds (r.frame id) (frame.rename r) } := by
    refine ⟨⟨frames, image.tallies, image.contents, ?_, image.given, ?_, image.entered,
      image.session, image.stack, image.out⟩, rfl, by simp, kept, fun _ _ => rfl⟩
    · simp only [image.frame, Frame.rename_mark, Frame.entries_rename, image.tables]
      exact assign_of_injective r.mark_injective (List.map r.entry) _ _ _
    · simp only [image.frame, Frame.rename_mark, image.namespaces]
      exact erase_of_injective r.mark_injective r.frame _ _
  have before : (s.frame (r.frame id)).mark = r.mark (t.frame id).mark := by
    rw [image.frame, Frame.rename_mark]
  have first := shareMark_follows (t.frame id).mark replaced.image
  rw [← before] at first
  exact (replaced.trans first).trans (shareMark_follows frame.mark first.image)

theorem shareMark_journal (mark : Nat) (t : Store) : (t.shareMark mark).journal = t.journal := by
  unfold Store.shareMark
  split <;> rfl

theorem shareMark_writer (mark : Nat) (t : Store) : (t.shareMark mark).writer = t.writer := by
  unfold Store.shareMark
  split <;> rfl

theorem replaceNames_later (id : Nat) (frame : Frame) (t : Store) :
    Later t ((t.replaceNames id frame).note (.overwritten id)) := by
  let replaced : Store :=
    { t with
      tables := t.tables.assign (t.frame id).mark (t.frame id).entries
      namespaces := t.namespaces.erase (t.frame id).mark
      frames := t.frames.setIfInBounds id frame }
  have first := share_later (.dict (t.frame id).mark []) replaced
  have second := share_later (.dict frame.mark []) (replaced.shareMark (t.frame id).mark)
  have size : t.frames.size = replaced.frames.size := Array.size_setIfInBounds.symm
  refine ⟨first.marks.trans second.marks, size.le.trans (first.frames.trans second.frames),
    second.room.trans first.room, .overwritten id ?_ ?_⟩
  · simp only [Store.replaceNames, shareMark_journal]
  · simp only [Store.replaceNames, shareMark_writer]

theorem bind_equi (id : Nat) (name : String) (v : Value) :
    Equi r (fun _ : Unit => ()) (bind id name v) (bind (r.frame id) name (v.rename r)) := by
  have read (v : Value) (t s : Store) (image : Image r t s) :
      (s.frame (r.frame id)).set name (v.rename r) = Frame.rename r <$> (t.frame id).set name v := by
    rw [image.frame, Frame.set_rename]
  unfold bind
  split
  · exact (head_equi v).bind fun v => .write (read v) (fun t frame _ => replaceNames_later id frame t)
      fun frame _ _ image => note_follows _ _ (replaceNames_follows id frame image)
  · rename_i ne
    exact .write (read v) (fun t frame set => change_later (.bound ne set))
      fun frame _ _ image => change_follows id frame _ _ image

theorem unbind_equi (id : Nat) (name : String) :
    Equi r (fun _ : Unit => ()) (unbind id name) (unbind (r.frame id) name) :=
  .write (f := Frame.rename r) (fun t s image => by rw [image.frame, Frame.unset_rename])
    (fun t frame unset => change_later (.unbound unset))
    fun frame _ _ image => change_follows id frame _ _ image

theorem newEnvironment_equi (path home : String) (outer : Value) :
    Equi r (Value.rename r) (newEnvironment path home outer)
      (newEnvironment path home (outer.rename r)) := by
  refine ⟨fun t => ⟨Nat.le_succ _, ?_, rfl, .push rfl⟩, ?_, fun _ _ _ run => nomatch run⟩
  · exact (Array.size_push ..).symm ▸ Nat.le_succ _
  · intro t s image a t' run allots
    cases run
    have numbered : r.frame t.frames.size = s.frames.size := by
      simpa [Store.push] using allots.frames 0 (by simp [Store.push])
    have marked : r.mark t.nextMark = s.nextMark := by
      simpa [Store.push] using allots.marks 0 (by simp [Store.push])
    have frames := image.frames.push
      { card := { path := .str path, home := .str home }, mark := t.nextMark } numbered
    have kept : Kept r s.frames (s.frames.push
        { card := { path := .str path, home := .str home }, mark := s.nextMark }) :=
      FramesImage.kept_push _
    simp only [Frame.rename, List.map_nil, Card.rename, Value.rename, r.mark_zero, marked,
      Value.renameEntries_eq] at frames
    refine ⟨s.push { card := { path := .str path, home := .str home }, mark := s.nextMark }, ?_,
      ⟨frames, image.tallies, image.contents, image.tables, image.given, image.namespaces,
        image.entered, image.session, image.stack, image.out⟩, ?_, ?_, ?_, fun _ _ => rfl⟩
    · rw [Value.rename, numbered]
      rfl
    · simp only [Store.push]
      omega
    · simp [Store.push]
      omega
    · simpa [Store.push] using kept

/-! Texts. -/

theorem shown_equi (v : Value) : Equi r id (shown v) (shown (v.rename r)) := by
  refine Equi.get (g := id) (h := fun s => ofExcept ((s.view v).showWith s.frame))
    (k := fun s => ofExcept ((s.view (v.rename r)).showWith s.frame)) (fun _ => .ofExcept _) ?_
  intro t s image
  exact .ofExcept (by rw [image.showWith_view, id_map])

theorem shownPlain_equi (v : Value) : Equi r id (shownPlain v) (shownPlain (v.rename r)) := by
  refine Equi.get (g := id) (h := fun s => ofExcept ((s.view v).showPlain s.frame))
    (k := fun s => ofExcept ((s.view (v.rename r)).showPlain s.frame)) (fun _ => .ofExcept _) ?_
  intro t s image
  exact .ofExcept (by rw [image.showPlain_view, id_map])

theorem page_equi (v : Value) : Equi r id (page v) (page (v.rename r)) := by
  refine Equi.get (g := id)
    (h := fun s => ofExcept ((s.view v).docWith s.frame) >>= fun d => pure d.pretty)
    (k := fun s => ofExcept ((s.view (v.rename r)).docWith s.frame) >>= fun d => pure d.pretty)
    (fun _ => .bind (.ofExcept _) fun _ => .pure _) ?_
  intro t s image
  exact (Equi.ofExcept (f := id) (by rw [image.docWith_view, id_map])).bind fun d => .pure d.pretty

/-! Members. -/

theorem length_equi (v : Value) : Equi r id (length v) (length (v.rename r)) :=
  (head_equi v).bind fun v => .ofExcept (by rw [Value.length_rename, id_map])

theorem members_equi (v : Value) :
    Equi r (List.map (Value.rename r)) (members v) (members (v.rename r)) := by
  refine (head_equi v).bind fun v => (Equi.ofExcept (Value.members_rename r v)).bind fun vs => ?_
  have marks : Equi r (List.map (Value.rename r)) (vs.mapM marked)
      ((vs.map (Value.rename r)).mapM marked) :=
    .mapM marked_equi vs
  cases v with
  | array => exact marks
  | _ => exact .pure vs

theorem truth_equi (v : Value) : Equi r id (truth v) (truth (v.rename r)) :=
  (head_equi v).bind fun v => .ofExcept (by rw [Value.truth_rename, id_map])

theorem shareTable_equi (o k v : Value) :
    Equi r (fun _ : Unit => ()) (shareTable o k v)
      (shareTable (o.rename r) (k.rename r) (v.rename r)) := by
  cases o with
  | environment id outer =>
      cases k with
      | str name =>
          by_cases same : name = "__dict__"
          · subst same
            exact share_equi v
          · simpa [shareTable, same] using Equi.pure (r := r) (f := fun _ : Unit => ()) ()
      | _ => exact .pure ()
  | _ => exact .pure ()

theorem item_equi (o k : Value) :
    Equi r (Value.rename r) (item o k) (item (o.rename r) (k.rename r)) := by
  refine (head_equi o).bind fun o' => ?_
  have rest (v : Value) : Equi r (Value.rename r) (shareTable o k v >>= fun _ => marked v)
      (shareTable (o.rename r) (k.rename r) (v.rename r) >>= fun _ => marked (v.rename r)) :=
    (shareTable_equi o k v).bind fun _ => marked_equi v
  refine Equi.get (fun s => .bind (head_equi (r := r) k).grows fun k' =>
    .bind (.ofExcept _) fun v => (rest v).grows) fun t s image => ?_
  exact (head_equi k).bind fun k' =>
    (Equi.ofExcept (Value.itemAt_rename image.renamedFrames o' k')).bind rest

/-! Operators. -/

theorem binary_equi (op : BinaryOp) (a b : Value) :
    Equi r (Value.rename r) (binary op a b) (binary op (a.rename r) (b.rename r)) := by
  have given (v : Value) : Equi r (Value.rename r) (if isShallow op a b then head v else now v)
      (if isShallow op (a.rename r) (b.rename r) then head (v.rename r) else now (v.rename r)) := by
    have shallow : isShallow op (a.rename r) (b.rename r) = isShallow op a b := by
      simp only [isShallow, Value.isArray_rename]
    rw [shallow]
    split
    · exact head_equi v
    · exact now_equi v
  exact (given a).bind fun a => (given b).bind fun b => Equi.fresh.bind fun mark =>
    .get (fun _ => .ofExcept _) fun _ _ image =>
      .ofExcept (Value.operate_rename image.reader mark op a b)

/-! Attributes. -/

theorem unpackPair_equi (vs : List Value) :
    Equi r (fun pair => (pair.1.rename r, pair.2.rename r)) (unpackPair vs)
      (unpackPair (vs.map (Value.rename r))) := by
  rcases vs with _ | ⟨a, _ | ⟨b, _ | ⟨c, vs⟩⟩⟩
  · exact .fault rfl
  · exact .fault rfl
  · exact .pure (a, b)
  · refine .fault ?_
    simp

theorem pairOf_equi (entry : Value) :
    Equi r (fun pair => (pair.1.rename r, pair.2.rename r)) (pairOf entry)
      (pairOf (entry.rename r)) := by
  have refused : Equi r (fun pair : Value × Value => (pair.1.rename r, pair.2.rename r))
      (fault (.type (.cannotUnpack entry.operandName)))
      (fault (.type (.cannotUnpack (entry.rename r).operandName))) :=
    .fault (by rw [Value.operandName_rename])
  have split := (members_equi (r := r) entry).bind unpackPair_equi
  cases entry with
  | list | tuple | str | dict | range | array | environment => exact split
  | _ => exact refused

theorem labelsWhere_equi (passed : Bool) (results : Value) :
    Equi r (List.map (Value.rename r)) (labelsWhere passed results)
      (labelsWhere passed (results.rename r)) := by
  refine (members_equi results).bind fun entries => ?_
  refine (Equi.mapM (g := Option.map (Value.rename r)) (fun entry => ?_) entries).bind fun labels => ?_
  · refine (pairOf_equi entry).bind fun pair => (truth_equi pair.2).bind fun ok => ?_
    dsimp only [id]
    split
    · exact .pure (some pair.1)
    · exact .pure none
  · have kept : (labels.map (Option.map (Value.rename r))).filterMap id =
        (labels.filterMap id).map (Value.rename r) := by
      simp [List.filterMap_map, List.map_filterMap]
    simpa only [kept] using Equi.pure (f := List.map (Value.rename r)) (labels.filterMap id)

theorem count_equi (passed : Bool) (results : Value) :
    Equi r (Value.rename r) (count passed results) (count passed (results.rename r)) :=
  (labelsWhere_equi passed results).bind fun labels => by
    simpa using Equi.pure (f := Value.rename r) (Value.int labels.length)

theorem computed_equi (v : Value) (results : Value) (name : String) :
    Equi r (Value.rename r) ((computed? results name).getD (fault (v.lacks name)))
      ((computed? (results.rename r) name).getD (fault ((v.rename r).lacks name))) := by
  unfold computed?
  split
  · exact count_equi true results
  · exact count_equi false results
  · exact (count_equi false results).bind fun n => binary_equi .equal n (.int 0)
  · exact .fault (by rw [Value.lacks_rename])

theorem missing_equi (v : Value) (name : String) :
    Equi r (Value.rename r) (missing v name) (missing (v.rename r) name) := by
  have lacking : Equi r (Value.rename r) (fault (v.lacks name)) (fault ((v.rename r).lacks name)) :=
    .fault (by rw [Value.lacks_rename])
  cases v with
  | environment id outer =>
      simp only [Value.rename, missing]
      split
      · exact .fault rfl
      · exact lookup_equi (.environment id outer) name
  | checkRun mark title strict trace results =>
      exact computed_equi (.checkRun mark title strict trace results) results name
  | _ => exact lacking

theorem getAttribute_equi (o : Value) (name : String) :
    Equi r (Value.rename r) (getAttribute o name) (getAttribute (o.rename r) name) := by
  refine Equi.get (fun t => ?_) fun t s image => ?_
  · cases t.attribute? o name with
    | none => exact (missing_equi (r := r) o name).grows
    | some v => exact (shared_equi (r := r) name v).grows
  · rw [image.attribute?]
    cases t.attribute? o name with
    | none => exact missing_equi o name
    | some v => exact shared_equi name v

theorem give_equi (o : Value) (name : String) (v : Value) :
    Equi r (fun _ : Unit => ()) (give o name v) (give (o.rename r) name (v.rename r)) := by
  unfold give
  rw [Value.holder?_rename]
  cases o.holder? with
  | none => exact .fault (by rw [Value.lacks_rename])
  | some holder =>
      refine .update (fun _ => ⟨Nat.le_refl _, Nat.le_refl _, rfl, .still rfl rfl rfl⟩)
        fun t s image _ => ?_
      refine ⟨⟨image.frames, image.tallies, image.contents, image.tables, ?_, image.namespaces,
        image.entered, image.session, image.stack, image.out⟩, rfl, rfl, Kept.refl _, fun _ _ => rfl⟩
      rw [image.given]
      exact assign_of_injective r.attribute_injective (Value.rename r) t.given (holder, name) v

theorem setAttribute_equi (o : Value) (name : String) (v : Value) :
    Equi r (fun _ : Unit => ()) (setAttribute o name v)
      (setAttribute (o.rename r) name (v.rename r)) := by
  have given := give_equi (r := r) o name v
  cases o with
  | tally mark d c =>
      refine .update (fun _ => ⟨Nat.le_refl _, Nat.le_refl _, rfl, .still rfl rfl rfl⟩) fun t s image _ => ?_
      have counts := image.counts mark d c
      have assigned := tallies_follows mark (if name = "derivations" then (v, (t.counts mark (d, c)).2)
        else ((t.counts mark (d, c)).1, v)) image
      simp only [counts, Renaming.entry] at assigned ⊢
      split at assigned <;> simp_all
  | frame id => exact bind_equi id name v
  | _ => exact given

theorem hasAttribute_equi (o : Value) (name : String) :
    Equi r id (hasAttribute o name) (hasAttribute (o.rename r) name) := by
  refine Equi.recover ?_ fun e e' bare => ?_
  · exact ((getAttribute_equi o name).map (g := fun _ : Unit => ()) (h := fun _ => ())
      (l := fun _ => ()) fun _ => rfl).bind fun _ => .pure true
  · cases e <;> cases e' <;>
      first
      | exact .pure false
      | exact .fault bare
      | simp [Fault.bare] at bare

end Knot.Run
