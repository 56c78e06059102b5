import Knot.Call.Collection
import Knot.Proofs.Renaming.Action
import Mathlib.Data.List.InsertIdx

/-!
Methods of lists, tuples and dictionaries in an image.
-/

namespace Knot.Collection

open Renaming Run

variable {r : Renaming}

@[simp]
theorem ok_bind {α β : Type} (a : α) (f : α → Except Fault β) : (Except.ok a >>= f) = f a := rfl

theorem placeOf_rename (v : Value) (members : List Value) :
    placeOf (v.rename r) (members.map (·.rename r)) = placeOf v members := by
  induction members with
  | nil => rfl
  | cons member rest ih => simp only [List.map_cons, placeOf, Value.equalMember_rename, ih]

theorem countOf_rename (v : Value) (members : List Value) :
    countOf (v.rename r) (members.map (·.rename r)) = countOf v members := by
  induction members with
  | nil => rfl
  | cons member rest ih => simp only [List.map_cons, countOf, Value.equalMember_rename, ih]

@[simp]
theorem wordOf_rename (v : Value) : wordOf (v.rename r) = wordOf v := by
  simp only [wordOf, Grid.index?_rename, Value.operandName_rename]

@[simp]
theorem boundOf_rename (v : Value) : boundOf (v.rename r) = boundOf v := by
  simp only [boundOf, Grid.index?_rename]

def Outcome.rename (r : Renaming) (outcome : Outcome) : Outcome :=
  ⟨outcome.items.map (List.map (·.rename r)), outcome.result.rename r⟩

@[simp]
theorem Outcome.rename_mk (items : Option (List Value)) (result : Value) :
    Outcome.rename r ⟨items, result⟩ = ⟨items.map (List.map (·.rename r)), result.rename r⟩ := rfl

def TableOutcome.rename (r : Renaming) (outcome : TableOutcome) : TableOutcome :=
  ⟨outcome.entries.map (List.map r.entry), outcome.result.rename r⟩

@[simp]
theorem TableOutcome.rename_mk (entries : Option (List (Value × Value))) (result : Value) :
    TableOutcome.rename r ⟨entries, result⟩ = ⟨entries.map (List.map r.entry), result.rename r⟩ := rfl

theorem pop_rename (items : List Value) (i : Int) :
    pop (items.map (·.rename r)) i = Outcome.rename r <$> pop items i := by
  simp only [pop, List.isEmpty_map, List.length_map, List.getElem?_map]
  split
  · rfl
  · cases Value.position? items.length i with
    | none => rfl
    | some place => cases h : items[place]? <;> simp [h, List.eraseIdx_map]

theorem indexOf_rename (members : List Value) (v : Value) (bounds : List Value) (absent : Fault) :
    indexOf (members.map (·.rename r)) (v.rename r) (bounds.map (·.rename r)) absent =
      Outcome.rename r <$> indexOf members v bounds absent := by
  have ends : (bounds.map (·.rename r)).mapM boundOf = bounds.mapM boundOf := by
    rw [mapM_of_map]
    simp only [boundOf_rename]
  simp only [indexOf, ends, List.length_map, ← List.map_take, ← List.map_drop, placeOf_rename,
    map_bind]
  refine bind_congr fun ends => bind_congr fun found => ?_
  cases found <;> simp [throw, throwThe, MonadExceptOf.throw]

theorem removeAt_rename (items : List Value) (found : Option Nat) :
    removeAt (items.map (·.rename r)) found = Outcome.rename r <$> removeAt items found := by
  cases found with
  | none => rfl
  | some place => simp [removeAt, List.eraseIdx_map]

/-! What a method does, read in a store and in its image. -/

section

variable {t s : Store} (image : Image r t s)
include image

theorem actOnList_rename (mark : Nat) (name : String) (items members args : List Value) :
    actOnList s (r.mark mark) name (items.map (·.rename r)) (members.map (·.rename r))
        (args.map (·.rename r)) =
      Outcome.rename r <$> actOnList t mark name items members args := by
  have shown (v : Value) : (v.rename r).showWith s.frame = v.showWith t.frame :=
    Value.showWith_rename image.renamedFrames v
  have searched (a : Value) (bounds : List Value) :
      ((s.now (a.rename r)).showWith s.frame >>= fun text =>
        indexOf (members.map (·.rename r)) (s.now (a.rename r)) (bounds.map (·.rename r))
          (Fault.value (.notInList text))) =
        Outcome.rename r <$> ((t.now a).showWith t.frame >>= fun text =>
          indexOf members (t.now a) bounds (Fault.value (.notInList text))) := by
    simp only [image.now, shown, indexOf_rename, map_bind]
  have removed (a : Value) :
      (placeOf (s.now (a.rename r)) (members.map (·.rename r)) >>=
        removeAt (items.map (·.rename r))) =
        Outcome.rename r <$> (placeOf (t.now a) members >>= removeAt items) := by
    simp only [image.now, placeOf_rename, map_bind]
    exact bind_congr fun found => removeAt_rename items found
  unfold actOnList
  rcases args with _ | ⟨a, _ | ⟨b, _ | ⟨c, args⟩⟩⟩
  all_goals
    simp only [List.map_nil, List.map_cons]
    split <;> injections <;> subst_vars
  all_goals
    first
    | exact removed _
    | exact searched a []
    | exact searched a [b]
    | exact searched a (b :: c :: args)
    | (simp [countOf_rename, pop_rename, image.now, image.head, map_bind]; done)
    | simp_all

theorem actOnTuple_rename (name : String) (members args : List Value) :
    actOnTuple s name (members.map (·.rename r)) (args.map (·.rename r)) =
      Outcome.rename r <$> actOnTuple t name members args := by
  have searched (a : Value) (bounds : List Value) :=
    indexOf_rename (r := r) members (t.now a) bounds (Fault.value .notInTuple)
  unfold actOnTuple
  rcases args with _ | ⟨a, _ | ⟨b, args⟩⟩
  · simp
  · simp only [List.map_nil, List.map_cons]
    split
    · injections
      subst_vars
      simp [countOf_rename, image.now]
    · injections
      subst_vars
      rw [image.now]
      exact searched a []
    · simp_all
  · simp only [List.map_cons]
    split
    · injections
    · injections
      subst_vars
      rw [image.now]
      exact searched a (b :: args)
    · simp_all

omit image in
theorem find?_rename (key : Value) (entries : List (Value × Value)) :
    find? (key.rename r) (entries.map r.entry) = Option.map (·.rename r) <$> find? key entries := by
  have found : (entries.map r.entry).find? (fun e => Value.sameKey e.1 (key.rename r)) =
      (entries.find? fun e => Value.sameKey e.1 key).map r.entry := by
    rw [List.find?_map]
    simp [Function.comp_def]
  simp only [find?, Value.checkKey_rename, map_bind]
  refine bind_congr fun _ => ?_
  rw [found]
  cases entries.find? (fun e => Value.sameKey e.1 key) <;> rfl

theorem actOnDict_rename (mark : Nat) (name : String) (entries : List (Value × Value))
    (args : List Value) :
    actOnDict s (r.mark mark) name (entries.map r.entry) (args.map (·.rename r)) =
      TableOutcome.rename r <$> actOnDict t mark name entries args := by
  have shown (v : Value) : (v.rename r).showWith s.frame = v.showWith t.frame :=
    Value.showWith_rename image.renamedFrames v
  have kept (key : Value) : (entries.map r.entry).filter
      (fun e => !Value.sameKey e.1 (key.rename r)) =
      (entries.filter fun e => !Value.sameKey e.1 key).map r.entry := by
    rw [List.filter_map]
    simp [Function.comp_def]
  unfold actOnDict
  rcases args with _ | ⟨key, rest⟩
  · simp only [List.map_nil]
    split <;> simp_all
  · have found := find?_rename (r := r) key entries
    simp only [List.map_cons]
    split <;> injections <;> subst_vars
    · simp
    · simp
    · rw [found]
      cases find? key entries with
      | error e => rfl
      | ok held => cases held <;> cases rest <;> simp
    · rw [found]
      cases find? key entries with
      | error e => rfl
      | ok held => cases held <;> cases rest <;> simp [← Value.insertEntry_rename]
    · rw [found, List.isEmpty_map]
      split
      · cases rest <;> simp [shown, throw, throwThe, MonadExceptOf.throw]
      · cases find? key entries with
        | error e => rfl
        | ok held => cases held <;> cases rest <;> simp [shown, kept, throw, throwThe, MonadExceptOf.throw]
    · simp_all

end

/-! Calls. -/

theorem setItems_equi (mark : Nat) (items : List Value) :
    Equi r (fun _ : Unit => ()) (setItems mark items)
      (setItems (r.mark mark) (items.map (Value.rename r))) :=
  contents_equi mark items

theorem setEntries_equi (mark : Nat) (entries : List (Value × Value)) :
    Equi r (fun _ : Unit => ()) (setEntries mark entries)
      (setEntries (r.mark mark) (entries.map r.entry)) := by
  refine .update (fun t => ?_) fun t s image _ => ?_
  · cases t.namespaces.lookup mark with
    | none => exact ⟨Nat.le_refl _, Nat.le_refl _, rfl, .still rfl rfl rfl⟩
    | some id => exact overwritten_later id _ t
  · dsimp only
    rw [image.lookup_namespaces]
    cases t.namespaces.lookup mark with
    | none =>
        refine ⟨⟨image.frames, image.tallies, image.contents, ?_, image.given, image.namespaces,
          image.entered, image.session, image.stack, image.out⟩, rfl, rfl, Kept.refl _, fun _ _ => rfl⟩
        simp only [Option.map_none, image.tables]
        exact assign_of_injective r.mark_injective (List.map r.entry) t.tables mark entries
    | some id =>
        have follows := note_follows (.overwritten id) (.overwritten (r.frame id))
          (setFrame_follows id { t.frame id with bindings := Frame.bindingsOf entries } image)
        simp only [Option.map_some, image.frame]
        simpa [Frame.rename] using follows

theorem check_rename (takes : Takes) (kindName name : String) (args : List Value) (named : Named) :
    takes.check kindName name (args.map (Value.rename r)) (named.map (Prod.map id (Value.rename r))) =
      takes.check kindName name args named := by
  cases named <;> cases takes <;> simp [Takes.check]

/-- What a method does once its arguments fit. -/
theorem acted_equi (owner : Value) (name : String) (copied : Nat) (args : List Value) :
    Equi r (Value.rename r)
      (do
        let s ← get
        match s.head owner with
        | .list mark items =>
            let outcome ← ofExcept (actOnList s copied name items (items.map s.now) args)
            if let some items := outcome.items then setItems mark items
            return outcome.result
        | .tuple _ items =>
            return (← ofExcept (actOnTuple s name (items.map s.now) args)).result
        | .dict mark entries =>
            let outcome ← ofExcept (actOnDict s copied name entries args)
            if let some entries := outcome.entries then setEntries mark entries
            return outcome.result
        | _ => return .none)
      (do
        let s ← get
        match s.head (owner.rename r) with
        | .list mark items =>
            let outcome ← ofExcept (actOnList s (r.mark copied) name items (items.map s.now)
              (args.map (Value.rename r)))
            if let some items := outcome.items then setItems mark items
            return outcome.result
        | .tuple _ items =>
            return (← ofExcept (actOnTuple s name (items.map s.now) (args.map (Value.rename r)))).result
        | .dict mark entries =>
            let outcome ← ofExcept (actOnDict s (r.mark copied) name entries
              (args.map (Value.rename r)))
            if let some entries := outcome.entries then setEntries mark entries
            return outcome.result
        | _ => return .none) := by
  refine Equi.get (fun t => ?_) fun t s image => ?_
  · split
    · refine .bind (.ofExcept _) fun outcome => ?_
      rcases outcome with ⟨_ | items, result⟩
      · exact .pure _
      · exact .bind (setItems_equi (r := r) _ items).grows fun _ => .pure _
    · exact .bind (.ofExcept _) fun outcome => .pure _
    · refine .bind (.ofExcept _) fun outcome => ?_
      rcases outcome with ⟨_ | entries, result⟩
      · exact .pure _
      · exact .bind (setEntries_equi (r := r) _ entries).grows fun _ => .pure _
    · exact .pure _
  · have now (items : List Value) :
        (items.map (Value.rename r)).map s.now = (items.map t.now).map (Value.rename r) := by
      simp [Function.comp_def, image.now]
    rw [image.head]
    cases t.head owner with
    | list mark items =>
        simp only [Value.rename, Value.renameAll_eq, now]
        refine (Equi.ofExcept (f := Outcome.rename r)
          (actOnList_rename image copied name items _ args)).bind fun outcome => ?_
        rcases outcome with ⟨_ | items, result⟩
        · exact .pure result
        · exact (setItems_equi mark items).bind fun _ => .pure result
    | tuple mark items =>
        simp only [Value.rename, Value.renameAll_eq, now]
        exact (Equi.ofExcept (f := Outcome.rename r) (actOnTuple_rename image name _ args)).bind
          fun outcome => .pure outcome.result
    | dict mark entries =>
        simp only [Value.rename, Value.renameEntries_eq]
        refine (Equi.ofExcept (f := TableOutcome.rename r)
          (actOnDict_rename image copied name entries args)).bind fun outcome => ?_
        rcases outcome with ⟨_ | entries, result⟩
        · exact .pure result
        · exact (setEntries_equi mark entries).bind fun _ => .pure result
    | _ => exact .pure Value.none

theorem call?_equi (owner : Value) (name : String) (args : List Value) (named : Named) :
    Option.Rel (Equi r (Value.rename r)) (call? owner name args named)
      (call? (owner.rename r) name (args.map (Value.rename r))
        (named.map (Prod.map id (Value.rename r)))) := by
  have fitting (k : Kind) (takes : Takes) : Equi r id (ofExcept (takes.check k.name name args named))
      (ofExcept (takes.check k.name name (args.map (Value.rename r))
        (named.map (Prod.map id (Value.rename r))))) :=
    .ofExcept (by rw [check_rename, id_map])
  have chosen {owner owner' : Value} (k : Kind) (takes : Option Takes) {x y : Takes → Run Value}
      (called : call? owner name args named = takes.bind fun takes => some (x takes))
      (called' : call? owner' name (args.map (Value.rename r))
        (named.map (Prod.map id (Value.rename r))) = takes.bind fun takes => some (y takes))
      (ran : ∀ takes, Equi r (Value.rename r) (x takes) (y takes)) :
      Option.Rel (Equi r (Value.rename r)) (call? owner name args named)
        (call? owner' name (args.map (Value.rename r))
          (named.map (Prod.map id (Value.rename r)))) := by
    rw [called, called']
    cases takes with
    | none => exact .none
    | some takes => exact .some (ran takes)
  cases owner with
  | list mark items =>
      exact chosen .list (takesOfList? name) rfl rfl fun takes => (fitting .list takes).bind fun _ =>
        Equi.fresh.bind fun copied => acted_equi (.list mark items) name copied args
  | tuple mark items =>
      exact chosen .tuple (takesOfTuple? name) rfl rfl fun takes => (fitting .tuple takes).bind fun _ =>
        Equi.fresh.bind fun copied => acted_equi (.tuple mark items) name copied args
  | dict mark entries =>
      exact chosen .dict (takesOfDict? name) rfl rfl fun takes => (fitting .dict takes).bind fun _ =>
        Equi.fresh.bind fun copied => acted_equi (.dict mark entries) name copied args
  | method mark owner m =>
      have lacking (v : Value) : call? (.method mark v m) name args named = none := by
        simp [call?, Value.kind?]
      have lacking' : call? ((Value.method mark owner m).rename r) name (args.map (Value.rename r))
          (named.map (Prod.map id (Value.rename r))) = none := by
        simp [call?, Value.kind?]
      rw [lacking, lacking']
      exact .none
  | _ => exact .none

end Knot.Collection
