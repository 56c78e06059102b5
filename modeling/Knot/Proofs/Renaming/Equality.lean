import Knot.Equality
import Knot.Order
import Knot.Proofs.Renaming.Grid

/-!
Equality, order and keys of renamed values. Marks decide only whether two values are one object, and
a renaming keeps that.
-/

namespace Knot.Value

variable (r : Renaming)

/-- Equality of arrays gives the same for renamed values. -/
abbrev Invariant (arrays arrays' : Value → Value → Except Fault Bool) : Prop :=
  ∀ a b, arrays' (a.rename r) (b.rename r) = arrays a b

section

variable {r} {arrays arrays' : Value → Value → Except Fault Bool}

theorem memberEqual_of_equalWith {a b a' b' : Value} (same : same a' b' = same a b)
    (equal : equalWith arrays' a' b' = equalWith arrays a b) :
    memberEqual arrays' a' b' = memberEqual arrays a b := by
  simp only [memberEqual, orSame, same, equal]

/-- Where equality compares two members. -/
theorem orSame_equalWith (a b : Value) : orSame a b (equalWith arrays a b) = memberEqual arrays a b := rfl

theorem membersEqual_rename (xs : List Value)
    (members : ∀ x ∈ xs, ∀ y,
      memberEqual arrays' (x.rename r) (y.rename r) = memberEqual arrays x y)
    (ys : List Value) :
    membersEqual arrays' (xs.map (·.rename r)) (ys.map (·.rename r)) = membersEqual arrays xs ys := by
  induction xs generalizing ys with
  | nil => cases ys <;> simp [membersEqual]
  | cons x xs ih =>
      cases ys with
      | nil => simp [membersEqual]
      | cons y ys =>
          simp only [List.map_cons, membersEqual, orSame_equalWith, members x (by simp)]
          rw [ih (fun x member => members x (by simp [member]))]

theorem entriesEqual_rename (xs : List (Value × Value))
    (keys : ∀ x ∈ xs, ∀ y,
      memberEqual arrays' (x.1.rename r) (y.rename r) = memberEqual arrays x.1 y)
    (values : ∀ x ∈ xs, ∀ y,
      memberEqual arrays' (x.2.rename r) (y.rename r) = memberEqual arrays x.2 y)
    (ys : List (Value × Value)) :
    entriesEqual arrays' (xs.map r.entry) (ys.map r.entry) = entriesEqual arrays xs ys := by
  induction xs with
  | nil => simp [entriesEqual]
  | cons x xs ih =>
      obtain ⟨k, v⟩ := x
      have rest := ih (fun x member => keys x (by simp [member]))
        (fun x member => values x (by simp [member]))
      have key : ∀ y, memberEqual arrays' (k.rename r) (y.rename r) = memberEqual arrays k y :=
        keys (k, v) (by simp)
      have value : ∀ y, memberEqual arrays' (v.rename r) (y.rename r) = memberEqual arrays v y :=
        values (k, v) (by simp)
      have found : (ys.map r.entry).find?
            (fun y => (memberEqual arrays' (k.rename r) y.1).toOption == some true) =
          (ys.find? fun y => (memberEqual arrays k y.1).toOption == some true).map r.entry := by
        simp only [List.find?_map, Function.comp_def, Renaming.entry_fst, key]
      simp only [List.map_cons, Renaming.entry_mk, entriesEqual, orSame_equalWith, found]
      cases ys.find? fun y => (memberEqual arrays k y.1).toOption == some true with
      | none => rfl
      | some y => simp only [Option.map_some, Renaming.entry, value, rest]

theorem equalWith_rename (invariant : Invariant r arrays arrays') (a b : Value) :
    equalWith arrays' (a.rename r) (b.rename r) = equalWith arrays a b := by
  induction a using Value.induction_children generalizing b with
  | step a ih =>
      have member (u : Value) (present : u ∈ a.children) (y : Value) :
          memberEqual arrays' (u.rename r) (y.rename r) = memberEqual arrays u y :=
        memberEqual_of_equalWith (same_rename r u y) (ih u present y)
      have apart := invariant a b
      have identical := same_rename r a b
      rw [equalWith.eq_def arrays' (a.rename r), equalWith.eq_def arrays a]
      simp only [orSame_equalWith]
      cases a with
      | array => exact apart
      | list _ xs =>
          cases b with
          | array => exact apart
          | list _ ys =>
              have members := membersEqual_rename xs member ys
              simp [members]
          | _ => rfl
      | tuple _ xs =>
          cases b with
          | array => exact apart
          | tuple _ ys =>
              have members := membersEqual_rename xs member ys
              simp [members]
          | _ => simp [same]
      | dict _ xs =>
          cases b with
          | array => exact apart
          | dict _ ys =>
              have entries := entriesEqual_rename xs
                (fun x present => member x.1
                  (List.mem_append_left _ (List.mem_map_of_mem present)))
                (fun x present => member x.2
                  (List.mem_append_right _ (List.mem_map_of_mem present))) ys
              simp [entries]
          | _ => rfl
      | method _ o m =>
          cases b with
          | array => exact apart
          | method _ o' m' => simp
          | _ => rfl
      | procedure | var | application | tally | checkRun =>
          simp only [children, List.mem_cons, forall_eq_or_imp, List.not_mem_nil, false_imp_iff,
            implies_true, and_true] at member
          cases b with
          | array => exact apart
          | _ => first | rfl | simp only [Value.rename, member]
      | none | bool | int | float | str | range | recurring =>
          cases b with
          | array => exact apart
          | _ => rfl
      | _ =>
          cases b with
          | array => exact apart
          | _ => exact congrArg Except.ok identical

theorem memberEqual_rename (invariant : Invariant r arrays arrays') (a b : Value) :
    memberEqual arrays' (a.rename r) (b.rename r) = memberEqual arrays a b :=
  memberEqual_of_equalWith (same_rename r a b) (equalWith_rename invariant a b)

end

theorem arrayDepths_eq (vs : List Value) : arrayDepths vs = (vs.map arrayDepth).foldr max 0 := by
  induction vs with
  | nil => rfl
  | cons v rest ih => simp [arrayDepths, ih]

theorem arrayDepthEntries_eq (entries : List (Value × Value)) :
    arrayDepthEntries entries =
      (entries.map fun e => max e.1.arrayDepth e.2.arrayDepth).foldr max 0 := by
  induction entries with
  | nil => rfl
  | cons e rest ih => simp [arrayDepthEntries, ih]

@[simp]
theorem arrayDepth_rename (v : Value) : (v.rename r).arrayDepth = v.arrayDepth := by
  induction v using Value.induction_children with
  | step v ih =>
      cases v with
      | array _ _ _ items | list _ items | tuple _ items =>
          have depths : items.map (fun u => (u.rename r).arrayDepth) = items.map arrayDepth :=
            List.map_congr_left fun u member => ih u member
          simp [arrayDepth, arrayDepths_eq, Function.comp_def, depths]
      | dict _ entries =>
          have depths : entries.map (fun e =>
              max (e.1.rename r).arrayDepth (e.2.rename r).arrayDepth) =
              entries.map fun e => max e.1.arrayDepth e.2.arrayDepth :=
            List.map_congr_left fun e present => by
              rw [ih e.1 (List.mem_append_left _ (List.mem_map_of_mem present)),
                ih e.2 (List.mem_append_right _ (List.mem_map_of_mem present))]
          simp [arrayDepth, arrayDepthEntries_eq, Function.comp_def, depths]
      | procedure | var | application | tally | checkRun =>
          simp only [children, List.mem_cons, forall_eq_or_imp, List.not_mem_nil, false_imp_iff,
            implies_true, and_true] at ih
          simp [arrayDepth, ih]
      | _ => rfl

end Knot.Value

namespace Knot.Grid

open Value

variable {r : Renaming} {equal equal' : Value → Value → Except Fault Bool}

theorem elementEqual_rename (invariant : Invariant r equal equal') (left right : DType)
    (a b : Value) :
    elementEqual equal' left right (a.rename r) (b.rename r) =
      elementEqual equal left right a b := by
  have same := invariant a b
  unfold elementEqual
  split <;> first | exact same | rfl | skip
  simp only [toDouble_rename, same]

theorem equalities_rename (invariant : Invariant r equal equal') (a b : Grid) :
    equalities equal' (a.rename r) (b.rename r) = equalities equal a b := by
  simp only [equalities, meeting_rename, bind_map_left, mapM_of_map, rename_dtype, Renaming.entry,
    elementEqual_rename invariant]

theorem equal_rename (invariant : Invariant r equal equal') (a b : Grid) :
    Grid.equal equal' (a.rename r) (b.rename r) = Grid.equal equal a b := by
  simp only [Grid.equal, rename_shape, equalities_rename invariant]

end Knot.Grid

namespace Knot.Value

variable (r : Renaming)

theorem equalAt_rename (depth : Nat) : Invariant r (equalAt depth) (equalAt depth) := by
  induction depth with
  | zero => exact equalWith_rename fun _ _ => rfl
  | succ depth ih =>
      refine equalWith_rename fun a b => ?_
      simp only [Grid.operands_rename, bind_map_left, Grid.Operand.rename_grid,
        Grid.equalities_rename ih]

@[simp]
theorem equal_rename (a b : Value) : equal (a.rename r) (b.rename r) = equal a b := by
  simp only [equal, arrayDepth_rename]
  exact equalAt_rename r _ a b

@[simp]
theorem equalMember_rename (a b : Value) :
    equalMember (a.rename r) (b.rename r) = equalMember a b := by
  simp only [equalMember, same_rename, equal_rename]

@[simp]
theorem elementTruth_rename (v : Value) : (v.rename r).elementTruth = v.elementTruth := by
  cases v <;> simp [elementTruth, Grid.elementTruth, number?]

@[simp]
theorem truth_rename (v : Value) : (v.rename r).truth = v.truth := by
  cases v with
  | array _ _ _ data => rcases data with _ | ⟨u, _ | ⟨u', data⟩⟩ <;> simp [truth]
  | _ => simp [truth, number?]

theorem unhashableIn?_rename (vs : List Value)
    (members : ∀ v ∈ vs, (v.rename r).unhashable? = v.unhashable?) :
    unhashableIn? (vs.map (·.rename r)) = unhashableIn? vs := by
  induction vs with
  | nil => rfl
  | cons v rest ih =>
      rw [List.map_cons, unhashableIn?, unhashableIn?, members v (by simp),
        ih fun u member => members u (by simp [member])]

@[simp]
theorem unhashable?_rename (v : Value) : (v.rename r).unhashable? = v.unhashable? := by
  induction v using Value.induction_children with
  | step v ih =>
      cases v with
      | tuple _ items =>
          simpa [unhashable?] using unhashableIn?_rename r items ih
      | _ => rfl

@[simp]
theorem sameKey_rename (a b : Value) : sameKey (a.rename r) (b.rename r) = sameKey a b := by
  simp only [sameKey, equalMember_rename]

@[simp]
theorem checkKey_rename (key : Value) : checkKey (key.rename r) = checkKey key := by
  simp only [checkKey, unhashable?_rename]

@[simp]
theorem insertEntry_rename (key value : Value) (entries : List (Value × Value)) :
    insertEntry (key.rename r) (value.rename r) (entries.map r.entry) =
      (insertEntry key value entries).map r.entry := by
  induction entries with
  | nil => rfl
  | cons e rest ih =>
      obtain ⟨k, v⟩ := e
      simp only [List.map_cons, Renaming.entry_mk, insertEntry, sameKey_rename, ih]
      split <;> rfl

@[simp]
theorem distinct_rename (seen vs : List Value) :
    distinct (seen.map (·.rename r)) (vs.map (·.rename r)) =
      (distinct seen vs).map (·.rename r) := by
  induction vs generalizing seen with
  | nil => simp [distinct]
  | cons v rest ih =>
      have known : (seen.map (·.rename r)).any (sameKey · (v.rename r)) = seen.any (sameKey · v) := by
        simp [Function.comp_def]
      simp only [List.map_cons, distinct, known]
      split
      · exact ih seen
      · exact ih (v :: seen)

/-! Order. -/

/-- The order of two values that are neither texts nor sequences. -/
def numbersOrdered (op : OrderOp) (a b : Value) : Except Fault Value :=
  match a.number?, b.number? with
  | some m, some n => .ok (bool (op.numbers m n))
  | _, _ => .error (.type (.unordered op.text a.operandName b.operandName))

theorem numbersOrdered_rename (op : OrderOp) (a b : Value) :
    numbersOrdered op (a.rename r) (b.rename r) = (·.rename r) <$> numbersOrdered op a b := by
  simp only [numbersOrdered, number?_rename, operandName_rename]
  split <;> rfl

/-- The order of arrays gives renamed results for renamed values. -/
abbrev Equivariant (arrays arrays' : OrderOp → Value → Value → Except Fault Value) : Prop :=
  ∀ op a b, arrays' op (a.rename r) (b.rename r) = (·.rename r) <$> arrays op a b

section

variable {r} {arrays arrays' : OrderOp → Value → Value → Except Fault Value}

theorem membersOrdered_rename (op : OrderOp) (xs : List Value)
    (members : ∀ x ∈ xs, ∀ y,
      orderedWith arrays' op (x.rename r) (y.rename r) = (·.rename r) <$> orderedWith arrays op x y)
    (ys : List Value) (lengths : Nat × Nat) :
    membersOrdered arrays' op (xs.map (·.rename r)) (ys.map (·.rename r)) lengths =
      (·.rename r) <$> membersOrdered arrays op xs ys lengths := by
  induction xs generalizing ys with
  | nil => simp [membersOrdered]
  | cons x xs ih =>
      cases ys with
      | nil => simp [membersOrdered]
      | cons y ys =>
          have rest := ih (fun x member => members x (by simp [member])) ys
          simp only [List.map_cons, membersOrdered, equalMember_rename, map_bind, rest,
            members x (by simp)]
          refine bind_congr fun equal => ?_
          split <;> rfl

theorem orderedWith_rename (equivariant : Equivariant r arrays arrays') (op : OrderOp) (a b : Value) :
    orderedWith arrays' op (a.rename r) (b.rename r) =
      (·.rename r) <$> orderedWith arrays op a b := by
  induction a using Value.induction_children generalizing b with
  | step a ih =>
      have apart := equivariant op a b
      have numbers := numbersOrdered_rename r op a b
      rw [orderedWith.eq_def arrays' op (a.rename r), orderedWith.eq_def arrays op a]
      cases a with
      | array => exact apart
      | list _ xs | tuple _ xs =>
          have members (ys : List Value) :=
            membersOrdered_rename op xs ih ys (xs.length, ys.length)
          cases b with
          | array => exact apart
          | list | tuple => first | exact numbers | simp [members]
          | _ => exact numbers
      | str =>
          cases b with
          | array => exact apart
          | str => rfl
          | _ => exact numbers
      | _ =>
          cases b with
          | array => exact apart
          | _ => exact numbers

end

@[simp]
theorem keyBefore_rename (a b : Value) : keyBefore (a.rename r) (b.rename r) = keyBefore a b := by
  have order : orderedWith (fun _ _ _ => .error .stackExhausted) .less (a.rename r) (b.rename r) =
      (·.rename r) <$> orderedWith (fun _ _ _ => .error .stackExhausted) .less a b :=
    orderedWith_rename (fun _ _ _ => rfl) .less a b
  simp only [keyBefore, order, typeText_rename]
  cases orderedWith (fun _ _ _ => .error .stackExhausted) .less a b with
  | error => rfl
  | ok v => exact congrArg (fun t : Except Fault Bool => t.toOption == some true) (truth_rename r v)

end Knot.Value

/-! Sorting is by the keys only. -/

namespace Knot.Sorted

variable {α β : Type} {before : α → α → Bool} {before' : β → β → Bool} {f : α → β}

section

variable (same : ∀ x y, before' (f x) (f y) = before x y)
include same

theorem ascending_map (last : α) (xs : List α) :
    ascending before' (f last) (xs.map f) =
      Prod.map (List.map f) (List.map f) (ascending before last xs) := by
  induction xs generalizing last with
  | nil => rfl
  | cons x rest ih =>
      simp only [List.map_cons, ascending, same, ih]
      split <;> rfl

theorem descending_map (last : α) (xs : List α) :
    descending before' (f last) (xs.map f) =
      Prod.map (List.map f) (List.map f) (descending before last xs) := by
  induction xs generalizing last with
  | nil => rfl
  | cons x rest ih =>
      simp only [List.map_cons, descending, same, ih]
      split <;> rfl

theorem place_map (sorted : Array α) (x : α) (fuel low high : Nat) :
    place before' (sorted.map f) (f x) fuel low high = place before sorted x fuel low high := by
  induction fuel generalizing low high with
  | zero => rfl
  | succ fuel ih =>
      simp only [place, Array.getElem?_map, ih]
      split
      · cases sorted[low + (high - low) / 2]? with
        | none => rfl
        | some y => simp only [Option.map_some, same]
      · rfl

theorem insert_map (sorted : Array α) (x : α) :
    insert before' (sorted.map f) (f x) = (insert before sorted x).map f := by
  simp [insert, place_map same, List.map_take, List.map_drop]

theorem sort_map (xs : List α) : sort before' (xs.map f) = (sort before xs).map f := by
  have inserts (tail : List α) (sorted : Array α) :
      (tail.map f).foldl (insert before') (sorted.map f) =
        (tail.foldl (insert before) sorted).map f := by
    induction tail generalizing sorted with
    | nil => rfl
    | cons x tail ih => simp only [List.map_cons, List.foldl_cons, insert_map same, ih]
  rcases xs with _ | ⟨x, _ | ⟨y, rest⟩⟩
  · rfl
  · rfl
  · have down := descending_map same x (y :: rest)
    have up := ascending_map same x (y :: rest)
    simp only [List.map_cons] at down up
    simp only [List.map_cons, sort, same, down, up]
    split
    · have started := inserts (descending before x (y :: rest)).2
        (x :: (descending before x (y :: rest)).1).reverse.toArray
      simp at started ⊢
      rw [started]
      simp
    · have started := inserts (ascending before x (y :: rest)).2
        (x :: (ascending before x (y :: rest)).1).toArray
      simp at started ⊢
      rw [started]
      simp

end

end Knot.Sorted
