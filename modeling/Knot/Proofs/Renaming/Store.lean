import Knot.Attribute
import Knot.Proofs.Renaming.Operation
import Mathlib.Data.Prod.Basic

/-!
Images of stores: a store that holds, under other marks and frame numbers, all that another one holds,
and frames of its own beside it. What a renamed value shows in the image is what the value shows in the
store itself.
-/

namespace Knot

namespace Renaming

variable (r : Renaming)

theorem holder_injective : Function.Injective r.holder := by
  intro a b same
  cases a <;> cases b <;> simp_all [holder]

theorem attribute_injective : Function.Injective (Prod.map r.holder (id : String → String)) :=
  r.holder_injective.prodMap Function.injective_id

theorem mark_ne_own {m : Nat} (own : m ∈ r.own) (mark : Nat) : m ≠ r.mark mark :=
  fun same => r.own_apart m own mark same.symm

theorem not_own (mark : Nat) : (!r.own.contains (r.mark mark)) = true := by
  simpa using fun own => r.own_apart _ own mark rfl

@[simp]
theorem lies_rename (around : List Nat) (mark : Nat) :
    lies (around.map r.mark) (r.mark mark) = lies around mark := by
  rw [Bool.eq_iff_iff]
  simp [lies]

end Renaming

/-! Values as they are now. -/

variable {r : Renaming}

/-- What changing values show, under other marks. -/
structure Contents.Renamed (r : Renaming) (c c' : Contents) : Prop where
  items? : ∀ around mark,
    c'.items? (around.map r.mark) (r.mark mark) = (c.items? around mark).map (List.map (·.rename r))
  entries? : ∀ around mark,
    c'.entries? (around.map r.mark) (r.mark mark) = (c.entries? around mark).map (List.map r.entry)
  counts : ∀ mark a b, c'.counts (r.mark mark) (a.rename r, b.rename r) = r.entry (c.counts mark (a, b))
  code : ∀ around v, c'.code (around.map r.mark) (v.rename r) = (c.code around v).rename r

namespace Value

theorem withContentsAll_eq (c : Contents) (around : List Nat) (vs : List Value) :
    withContentsAll c around vs = vs.map (·.withContents c around) := by
  induction vs with
  | nil => simp [withContentsAll]
  | cons v rest ih => simp [withContentsAll, ih]

theorem withContentsEntries_eq (c : Contents) (around : List Nat) (entries : List (Value × Value)) :
    withContentsEntries c around entries =
      entries.map fun e => (e.1.withContents c around, e.2.withContents c around) := by
  induction entries with
  | nil => simp [withContentsEntries]
  | cons e rest ih => simp [withContentsEntries, ih]

theorem withContents_rename {c c' : Contents} (renamed : Contents.Renamed r c c') (v : Value)
    (around : List Nat) :
    (v.rename r).withContents c' (around.map r.mark) = (v.withContents c around).rename r := by
  induction v using Value.induction_children generalizing around with
  | step v ih =>
      have inner (mark : Nat) (u : Value) (member : u ∈ v.children) :
          (u.rename r).withContents c' (r.mark mark :: around.map r.mark) =
            (u.withContents c (mark :: around)).rename r :=
        ih u member (mark :: around)
      have items (mark : Nat) := renamed.items? (mark :: around) mark
      have entries (mark : Nat) := renamed.entries? (mark :: around) mark
      rw [withContents.eq_def c', withContents.eq_def c]
      cases v with
      | list mark xs =>
          have within : xs.map (fun u =>
              (u.rename r).withContents c' (r.mark mark :: around.map r.mark)) =
              xs.map fun u => (u.withContents c (mark :: around)).rename r :=
            List.map_congr_left fun u member => inner mark u member
          simp only [List.map_cons] at items
          simp only [Value.rename, renameAll_eq, r.lies_rename, items, withContentsAll_eq]
          split
          · rfl
          · cases c.items? (mark :: around) mark with
            | some items => simp
            | none => simp [Function.comp_def, within]
      | tuple mark xs =>
          have within : xs.map (fun u =>
              (u.rename r).withContents c' (r.mark mark :: around.map r.mark)) =
              xs.map fun u => (u.withContents c (mark :: around)).rename r :=
            List.map_congr_left fun u member => inner mark u member
          simp only [Value.rename, renameAll_eq, r.lies_rename, withContentsAll_eq]
          split
          · rfl
          · simp [Function.comp_def, within]
      | dict mark es =>
          have within : es.map (fun e =>
              ((e.1.rename r).withContents c' (r.mark mark :: around.map r.mark),
                (e.2.rename r).withContents c' (r.mark mark :: around.map r.mark))) =
              es.map fun e => ((e.1.withContents c (mark :: around)).rename r,
                (e.2.withContents c (mark :: around)).rename r) :=
            List.map_congr_left fun e present => by
              rw [inner mark e.1 (List.mem_append_left _ (List.mem_map_of_mem present)),
                inner mark e.2 (List.mem_append_right _ (List.mem_map_of_mem present))]
          simp only [List.map_cons] at entries
          simp only [Value.rename, renameEntries_eq, r.lies_rename, entries, withContentsEntries_eq]
          split
          · rfl
          · cases c.entries? (mark :: around) mark with
            | some entries => simp
            | none => simp [Function.comp_def, within]
      | array mark dtype shape xs =>
          have within : xs.map (fun u => (u.rename r).withContents c' (around.map r.mark)) =
              xs.map fun u => (u.withContents c around).rename r :=
            List.map_congr_left fun u member => ih u member around
          have held := renamed.items? around mark
          simp only [Value.rename, renameAll_eq, held, withContentsAll_eq]
          cases c.items? around mark with
          | some items => simp
          | none => simp [Function.comp_def, within]
      | procedure mark code env =>
          have body := ih code (by simp [children]) around
          have closed := ih env (by simp [children]) around
          simp only [Value.rename, body, closed, renamed.code]
      | tally mark d n =>
          have counted := renamed.counts mark d n
          simp only [Value.rename, counted, Renaming.entry_fst, Renaming.entry_snd]
      | method | environment | application | thunk =>
          simp only [children, List.mem_cons, forall_eq_or_imp, List.not_mem_nil, false_imp_iff,
            implies_true, and_true] at ih
          simp only [Value.rename, ih]
      | var mark sym =>
          have within := inner mark sym (by simp [children])
          simp only [Value.rename, r.lies_rename, within]
          split <;> rfl
      | checkRun mark name strict trace results =>
          have within := inner mark
          simp only [children, List.mem_cons, forall_eq_or_imp, List.not_mem_nil, false_imp_iff,
            implies_true, and_true] at within
          simp only [Value.rename, r.lies_rename, within]
          split <;> rfl
      | _ => rfl

end Value

/-! Frames. -/

/-- The frame of a number. -/
abbrev frameAt (frames : Array Frame) (id : Nat) : Frame := frames.getD id {}

/-- Frames of which those with renamed numbers hold what others hold, and the others have marks of
their own. -/
structure FramesImage (r : Renaming) (fs gs : Array Frame) : Prop where
  inside : ∀ id, r.frame id < gs.size ↔ id < fs.size
  held : ∀ id, frameAt gs (r.frame id) = (frameAt fs id).rename r
  apart : ∀ id < gs.size, (∀ j, r.frame j ≠ id) → ∀ m, (frameAt gs id).mark ≠ r.mark m

/-- The frames that are no image of any are as before. -/
structure Kept (r : Renaming) (gs gs' : Array Frame) : Prop where
  grows : gs.size ≤ gs'.size
  same : ∀ id < gs.size, (∀ j, r.frame j ≠ id) → frameAt gs' id = frameAt gs id

namespace Kept

theorem refl (gs : Array Frame) : Kept r gs gs := ⟨Nat.le_refl _, fun _ _ _ => rfl⟩

theorem trans {gs gs' gs'' : Array Frame} (first : Kept r gs gs') (second : Kept r gs' gs'') :
    Kept r gs gs'' where
  grows := first.grows.trans second.grows
  same id below outside :=
    (second.same id (below.trans_le first.grows) outside).trans (first.same id below outside)

end Kept

theorem frameAt_of_size_le {frames : Array Frame} {id : Nat} (outside : frames.size ≤ id) :
    frameAt frames id = {} := by
  simp [frameAt, Array.getD, outside]

theorem frameAt_set (frames : Array Frame) (id other : Nat) (frame : Frame) :
    frameAt (frames.setIfInBounds id frame) other =
      if other = id ∧ id < frames.size then frame else frameAt frames other := by
  simp only [frameAt, Array.getD_eq_getD_getElem?, Array.getElem?_setIfInBounds]
  split_ifs with same below both <;> grind

theorem frameAt_push (frames : Array Frame) (id : Nat) (frame : Frame) :
    frameAt (frames.push frame) id = if id = frames.size then frame else frameAt frames id := by
  simp only [frameAt, Array.getD_eq_getD_getElem?, Array.getElem?_push]
  split_ifs <;> rfl

theorem frameAt_map (frames : Array Frame) (f : Frame → Frame) (id : Nat) (below : id < frames.size) :
    frameAt (frames.map f) id = f (frameAt frames id) := by
  simp [frameAt, Array.getD, below]

namespace FramesImage

variable {fs gs : Array Frame} (image : FramesImage r fs gs)
include image

theorem set (id : Nat) (frame : Frame) :
    FramesImage r (fs.setIfInBounds id frame) (gs.setIfInBounds (r.frame id) (frame.rename r)) where
  inside id := by simpa using image.inside id
  held other := by
    simp only [frameAt_set, r.frame_inj, image.inside, image.held]
    split <;> rfl
  apart other below outside := by
    rw [Array.size_setIfInBounds] at below
    rw [frameAt_set, if_neg fun same => outside id same.1.symm]
    exact image.apart other below outside

omit image in
theorem kept_set (id : Nat) (frame : Frame) : Kept r gs (gs.setIfInBounds (r.frame id) frame) where
  grows := by simp
  same other below outside := by
    rw [frameAt_set, if_neg fun same => outside id same.1.symm]

theorem push (frame : Frame) (numbered : r.frame fs.size = gs.size) :
    FramesImage r (fs.push frame) (gs.push (frame.rename r)) where
  inside id := by
    rw [Array.size_push, Array.size_push, ← numbered, Nat.lt_succ_iff, Nat.lt_succ_iff,
      r.frame_strict.le_iff_le]
  held id := by
    simp only [frameAt_push, ← numbered, r.frame_inj, image.held]
    split <;> rfl
  apart id below outside := by
    have other : id ≠ gs.size := fun same => outside fs.size (numbered.trans same.symm)
    rw [frameAt_push, if_neg other]
    rw [Array.size_push] at below
    exact image.apart id (by omega) outside

omit image in
theorem kept_push (frame : Frame) : Kept r gs (gs.push frame) where
  grows := by simp
  same id below outside := by rw [frameAt_push, if_neg (by omega)]

theorem map {f g : Frame → Frame} (step : ∀ frame, g (frame.rename r) = (f frame).rename r)
    (still : ∀ id < gs.size, (∀ j, r.frame j ≠ id) → g (frameAt gs id) = frameAt gs id) :
    FramesImage r (fs.map f) (gs.map g) where
  inside id := by simpa using image.inside id
  held id := by
    by_cases below : id < fs.size
    · rw [frameAt_map _ _ _ ((image.inside id).mpr below), frameAt_map _ _ _ below, image.held, step]
    · have outside : ¬r.frame id < gs.size := fun h => below ((image.inside id).mp h)
      rw [frameAt_of_size_le (by simpa using outside), frameAt_of_size_le (by simpa using below)]
      simp
  apart id below outside := by
    rw [Array.size_map] at below
    rw [frameAt_map _ _ _ below, still id below outside]
    exact image.apart id below outside

omit image in
theorem kept_map {g : Frame → Frame}
    (still : ∀ id < gs.size, (∀ j, r.frame j ≠ id) → g (frameAt gs id) = frameAt gs id) :
    Kept r gs (gs.map g) where
  grows := by simp
  same id below outside := by rw [frameAt_map _ _ _ below, still id below outside]

theorem mark_beq {id : Nat} (below : id < fs.size) (below' : r.frame id < gs.size) (mark : Nat) :
    (gs[r.frame id].mark == r.mark mark) = (fs[id].mark == mark) := by
  have held := image.held id
  have here : frameAt gs (r.frame id) = gs[r.frame id] := by simp [frameAt, Array.getD, below']
  have there : frameAt fs id = fs[id] := by simp [frameAt, Array.getD, below]
  rw [here, there] at held
  rw [held, Frame.rename_mark, Bool.eq_iff_iff]
  simp

theorem findIdx?_mark (mark : Nat) :
    gs.findIdx? (·.mark == r.mark mark) = (fs.findIdx? (·.mark == mark)).map r.frame := by
  have marked (id : Nat) (below : id < gs.size) (has : gs[id].mark = r.mark mark) :
      ∃ j, ∃ h : j < fs.size, r.frame j = id ∧ fs[j].mark = mark := by
    by_cases outside : ∀ j, r.frame j ≠ id
    · have frame : frameAt gs id = gs[id] := by simp [frameAt, Array.getD, below]
      exact absurd (frame ▸ has) (image.apart id below outside mark)
    · obtain ⟨j, rfl⟩ := not_forall_not.mp outside
      have within := (image.inside j).mp below
      exact ⟨j, within, rfl, by simpa [has] using image.mark_beq within below mark⟩
  cases found : fs.findIdx? (·.mark == mark) with
  | none =>
      rw [Array.findIdx?_eq_none_iff] at found
      rw [Option.map_none, Array.findIdx?_eq_none_iff]
      intro frame member
      obtain ⟨id, below, rfl⟩ := Array.getElem_of_mem member
      by_contra has
      obtain ⟨j, within, -, same⟩ := marked id below (by simpa using has)
      simpa [same] using found fs[j] (Array.getElem_mem within)
  | some i =>
      rw [Array.findIdx?_eq_some_iff_getElem] at found
      obtain ⟨below, has, first⟩ := found
      rw [Option.map_some, Array.findIdx?_eq_some_iff_getElem]
      refine ⟨(image.inside i).mpr below, (image.mark_beq below _ mark).trans has, ?_⟩
      intro id before has
      obtain ⟨j, within, rfl, same⟩ := marked id _ (by simpa using has)
      exact first j (r.frame_strict.lt_iff_lt.mp before) (by simpa using same)

end FramesImage

/-! Stores. -/

/-- A store that holds what another one holds, renamed; its frames and marks may be more, and it may
have tallies of its own. -/
structure Image (r : Renaming) (t s : Store) : Prop where
  frames : FramesImage r t.frames s.frames
  tallies : s.tallies.filter (!r.own.contains ·.1) = t.tallies.map (Prod.map r.mark r.entry)
  contents : s.contents = t.contents.map (Prod.map r.mark (List.map (·.rename r)))
  tables : s.tables = t.tables.map (Prod.map r.mark (List.map r.entry))
  given : s.given = t.given.map (Prod.map (Prod.map r.holder id) (·.rename r))
  namespaces : s.namespaces = t.namespaces.map (Prod.map r.mark r.frame)
  entered : s.entered = t.entered.map (Prod.map r.mark id)
  session : s.session = t.session.map (Prod.map id (·.rename r))
  stack : s.stack = t.stack
  out : s.out = t.out

namespace Image

variable {t s : Store} (image : Image r t s)
include image

theorem frame (id : Nat) : s.frame (r.frame id) = (t.frame id).rename r := image.frames.held id

theorem renamedFrames : r.Frames t.frame s.frame := image.frame

theorem items (mark : Nat) (items : List Value) :
    s.items (r.mark mark) (items.map (·.rename r)) = (t.items mark items).map (·.rename r) := by
  simp only [Store.items, image.contents, lookup_of_injective r.mark_injective]
  cases t.contents.lookup mark <;> rfl

theorem lookup_tallies (mark : Nat) :
    s.tallies.lookup (r.mark mark) = (t.tallies.lookup mark).map r.entry := by
  rw [← Bindings.lookup_filter (p := fun m => !r.own.contains m) s.tallies (r.not_own mark),
    image.tallies, lookup_of_injective r.mark_injective]

theorem counts (mark : Nat) (a b : Value) :
    s.counts (r.mark mark) (a.rename r, b.rename r) = r.entry (t.counts mark (a, b)) := by
  simp only [Store.counts, image.lookup_tallies]
  cases t.tallies.lookup mark <;> rfl

theorem entries (id : Nat) : s.entries (r.frame id) = (t.entries id).map r.entry := by
  simp only [Store.entries, image.frame, Frame.entries_rename]

theorem lookup_namespaces (mark : Nat) :
    s.namespaces.lookup (r.mark mark) = (t.namespaces.lookup mark).map r.frame := by
  rw [image.namespaces, lookup_of_injective r.mark_injective]

theorem table? (mark : Nat) :
    s.table? (r.mark mark) = (t.table? mark).map (List.map r.entry) := by
  simp only [Store.table?, image.lookup_namespaces, image.tables,
    lookup_of_injective r.mark_injective]
  cases t.namespaces.lookup mark with
  | none => rfl
  | some id => exact congrArg some (image.entries id)

theorem head (v : Value) : s.head (v.rename r) = (t.head v).rename r := by
  cases v with
  | list mark items => simp [Store.head, image.items]
  | array mark dtype shape data => simp [Store.head, image.items]
  | dict mark entries =>
      simp only [Value.rename, Value.renameEntries_eq, Store.head, image.table?]
      cases t.table? mark <;> simp
  | _ => rfl

theorem lookup (name : String) (env : Value) :
    s.lookup name (env.rename r) = (·.rename r) <$> t.lookup name env :=
  Value.lookup_rename image.renamedFrames name env

theorem contentsNow {code code' : (Value → Value) → Value → Value}
    (same : ∀ inner inner', (∀ v, inner' (v.rename r) = (inner v).rename r) →
      ∀ v, code' inner' (v.rename r) = (code inner v).rename r) (hops : Nat) :
    Contents.Renamed r (t.contentsNow code hops) (s.contentsNow code' hops) := by
  induction hops with
  | zero => exact ⟨fun _ _ => rfl, fun _ _ => rfl, image.counts, fun _ _ => rfl⟩
  | succ hops ih =>
      have inner (around : List Nat) (v : Value) :
          (v.rename r).withContents (s.contentsNow code' hops) (around.map r.mark) =
            (v.withContents (t.contentsNow code hops) around).rename r :=
        Value.withContents_rename ih v around
      refine ⟨fun around mark => ?_, fun around mark => ?_, image.counts, fun around v => ?_⟩
      · simp only [Store.contentsNow, image.contents, lookup_of_injective r.mark_injective]
        cases t.contents.lookup mark with
        | none => rfl
        | some items => simp [Function.comp_def, inner]
      · simp only [Store.contentsNow, image.table?]
        cases t.table? mark with
        | none => rfl
        | some entries => simp [Function.comp_def, Renaming.entry, inner]
      · exact same _ _ (inner around) v

theorem now (v : Value) : s.now (v.rename r) = (t.now v).rename r := by
  have contents (hops : Nat) : Contents.Renamed r (t.contentsNow (fun _ v => v) hops)
      (s.contentsNow (fun _ v => v) hops) := by
    refine image.contentsNow ?_ hops
    exact fun _ _ _ _ => rfl
  have shown := Value.withContents_rename
    (contents (t.contents.length + t.namespaces.length + t.tables.length)) v []
  simpa [Store.now, image.contents, image.namespaces, image.tables] using shown

theorem codeShown {inner inner' : Value → Value}
    (same : ∀ v, inner' (v.rename r) = (inner v).rename r) (code : Value) :
    s.codeShown inner' (code.rename r) = (t.codeShown inner code).rename r := by
  cases code with
  | environment id outer =>
      have body := image.lookup "body" (.environment id outer)
      have params := image.lookup "parameters" (.environment id outer)
      simp only [Value.rename] at body params ⊢
      simp only [Store.codeShown, body, params]
      cases t.lookup "body" (.environment id outer) with
      | error => rfl
      | ok body =>
          cases t.lookup "parameters" (.environment id outer) with
          | error => rfl
          | ok params =>
              simp only [Functor.map, Except.map, same, Value.rename, Value.renameEntries_eq,
                List.map_cons, List.map_nil, Renaming.entry, r.mark_zero]
  | _ => rfl

theorem view (v : Value) : s.view (v.rename r) = (t.view v).rename r := by
  have shown := Value.withContents_rename
    (image.contentsNow (fun _ _ same => image.codeShown same)
      (t.contents.length + t.namespaces.length + t.tables.length + Store.codeHops)) v []
  simpa [Store.view, image.contents, image.namespaces, image.tables] using shown

theorem showWith_view (v : Value) :
    (s.view (v.rename r)).showWith s.frame = (t.view v).showWith t.frame := by
  rw [image.view, Value.showWith_rename image.renamedFrames]

theorem showPlain_view (v : Value) :
    (s.view (v.rename r)).showPlain s.frame = (t.view v).showPlain t.frame := by
  rw [image.view, Value.showPlain_rename image.renamedFrames]

theorem docWith_view (v : Value) :
    (s.view (v.rename r)).docWith s.frame = (t.view v).docWith t.frame := by
  rw [image.view, Value.docWith_rename image.renamedFrames]

theorem reader : Template.Reader.Renamed r t.reader s.reader where
  plain := image.showPlain_view
  shown := image.showWith_view
  item m k := Value.itemAt_rename image.renamedFrames m k

/-! Attributes. -/

omit image in
@[simp]
theorem textOrNothing_rename (text : Option String) :
    (Kind.textOrNothing text).rename r = Kind.textOrNothing text := by
  cases text <;> rfl

omit image in
theorem lookup_fixed {bindings : Bindings String Value}
    (fixed : bindings.map (Prod.map id (·.rename r)) = bindings) (name : String) :
    (bindings.lookup name).map (·.rename r) = bindings.lookup name := by
  rw [← lookup_map, fixed]

omit image in
theorem map_or {x y : Option Value} {f : Value → Value} :
    (x.or y).map f = (x.map f).or (y.map f) := by
  cases x <;> rfl

omit image in
theorem common?_rename (k : Kind) (name : String) :
    (k.common? name).map (·.rename r) = k.common? name := by
  unfold Kind.common?
  split <;> (try split) <;> simp

omit image in
theorem special?_rename (k : Kind) (v : Value) (name : String) :
    (if k.hasMember name then some (Value.method 0 (v.rename r) (.special name)) else none) =
      (if k.hasMember name then some (Value.method 0 v (.special name))
        else none).map (·.rename r) := by
  split <;> simp

omit image in
theorem attribute?_kind (k : Kind) (name : String) :
    (k.attribute? name).map (·.rename r) = k.attribute? name := by
  have defaults : k.defaults.map (Prod.map id (·.rename r)) = k.defaults := by
    cases k <;> simp [Kind.defaults]
  have computed : k.computed.map (Prod.map id (·.rename r)) = k.computed := by
    cases k <;> simp [Kind.computed]
  have methods : ((k.methods.lookup name).map (Value.member k)).map (·.rename r) =
      (k.methods.lookup name).map (Value.member k) := by
    cases k.methods.lookup name <;> rfl
  have special : (if k.hasMember name then some (Value.member k (.special name))
      else if Kind.kind.hasMember name then some (.method 0 (.kind k) (.special name))
      else none).map (·.rename r) =
      if k.hasMember name then some (.member k (.special name))
      else if Kind.kind.hasMember name then some (.method 0 (.kind k) (.special name)) else none := by
    split_ifs <;> simp
  unfold Kind.attribute?
  split
  · rfl
  · rfl
  · rfl
  · rfl
  · rfl
  · simp only [map_or, common?_rename, lookup_fixed defaults, lookup_fixed computed, methods, special]

theorem managerParts (mark : Nat) (limit : Value) :
    s.managerParts (r.mark mark) (limit.rename r) =
      (t.managerParts mark limit).map (Prod.map id (·.rename r)) := by
  simp only [Store.managerParts, image.entered, lookup_of_injective r.mark_injective]
  cases t.entered.lookup mark <;> simp

theorem parts (v : Value) : s.parts (v.rename r) = (t.parts v).map (Prod.map id (·.rename r)) := by
  cases v with
  | tally mark d c =>
      have counts := image.counts mark d c
      simp [Store.parts, counts]
  | manager mark limit => exact image.managerParts mark limit
  | _ => simp [Store.parts]

omit image in
theorem wrapped?_rename (f : Value) :
    Store.wrapped? (f.rename r) = (Store.wrapped? f).map (·.rename r) := by
  cases f with
  | builtin b => cases b <;> rfl
  | _ => rfl

theorem functionAttribute? (f : Value) (name : String) :
    s.functionAttribute? (f.rename r) name = (t.functionAttribute? f name).map (·.rename r) := by
  simp only [Store.functionAttribute?, Value.card?_rename image.renamedFrames f, Value.kind?_rename,
    wrapped?_rename]
  cases f.card? t.frame with
  | none => rfl
  | some card =>
      simp only [Option.map_some, Option.bind_some, Card.get?_rename]
      split
      · split <;> rfl
      · split
        · rfl
        · cases Store.wrapped? f <;> simp
        · rfl

theorem methodAttribute? (owner : Value) (m : Method) (name : String) :
    s.methodAttribute? (owner.rename r) m name =
      (t.methodAttribute? owner m name).map (·.rename r) := by
  have function := image.functionAttribute? (.method 0 owner m) name
  simp only [Value.rename, r.mark_zero] at function
  simp only [Store.methodAttribute?, Value.kind?_rename]
  split
  · rfl
  · split <;> rfl
  · rfl
  · exact function

theorem kindPart? (v : Value) (name : String) :
    s.kindPart? (v.rename r) name = (t.kindPart? v name).map (·.rename r) := by
  simp only [Store.kindPart?, Value.kind?_rename]
  cases v.kind? with
  | none => rfl
  | some k =>
      simp only [Option.bind_some, special?_rename, image.parts]
      split
      · rfl
      · split <;> simp [Renaming.entry]
      · split <;> rfl
      · rw [map_or, map_or, common?_rename, Option.map_map]
        congr 2
        cases k.methods.lookup name <;> simp

theorem given? (v : Value) (name : String) :
    s.given? (v.rename r) name = (t.given? v name).map (·.rename r) := by
  have looked (holder : Holder) : s.given.lookup (r.holder holder, name) =
      (t.given.lookup (holder, name)).map (·.rename r) := by
    rw [image.given]
    exact lookup_of_injective r.attribute_injective _ t.given (holder, name)
  simp only [Store.given?, Value.holder?_rename]
  cases v.holder? with
  | none => rfl
  | some holder => exact looked holder

theorem ownAttribute? (v : Value) (name : String) :
    s.ownAttribute? (v.rename r) name = (t.ownAttribute? v name).map (·.rename r) := by
  have plain : ((s.parts (v.rename r)).lookup name).or ((s.functionAttribute? (v.rename r) name).or
        (s.kindPart? (v.rename r) name)) =
      (((t.parts v).lookup name).or ((t.functionAttribute? v name).or
        (t.kindPart? v name))).map (·.rename r) := by
    rw [image.parts, lookup_map, image.functionAttribute?, image.kindPart?, map_or, map_or]
  cases v with
  | kind k => exact (attribute?_kind k name).symm
  | frame id => exact frameValue?_rename image.renamedFrames id name
  | method mark owner m =>
      have own := image.methodAttribute? owner m name
      have part := image.kindPart? (.method mark owner m) name
      simp only [Value.rename] at part
      simp only [Value.rename, Store.ownAttribute?, own, part, map_or]
  | _ => exact plain

theorem attribute? (v : Value) (name : String) :
    s.attribute? (v.rename r) name = (t.attribute? v name).map (·.rename r) := by
  simp only [Store.attribute?, image.given?, image.ownAttribute?, map_or]

end Image

end Knot
