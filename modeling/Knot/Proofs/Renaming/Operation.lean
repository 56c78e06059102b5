import Knot.Operation
import Knot.Proofs.Renaming.Printer
import Knot.Proofs.Renaming.Template

/-!
Sequences and operators on renamed values: members, items and results are renamed, lengths and faults
are the same.
-/

namespace Knot.Value

variable (r : Renaming)

/-! Sequences. -/

@[simp]
theorem characters_rename (s : String) :
    (characters s).map (·.rename r) = characters s := by
  simp [characters]

@[simp]
theorem arrayRows_rename (dtype : DType) (shape : List Nat) (data : List Value) :
    arrayRows dtype shape (data.map (·.rename r)) = (arrayRows dtype shape data).map (·.rename r) := by
  have pieces := Grid.parts_rename r ⟨dtype, shape, data⟩
  simp only [Grid.rename_mk] at pieces
  simp [arrayRows, pieces, Function.comp_def]

@[simp]
theorem length_rename (v : Value) : (v.rename r).length = v.length := by
  have refused : (Except.error (.type (.noLength (v.rename r).operandName)) : Except Fault Nat) =
      .error (.type (.noLength v.operandName)) := by
    rw [operandName_rename]
  cases v with
  | list _ items | tuple _ items | dict _ items => simp [length]
  | array _ _ shape _ => cases shape <;> rfl
  | str | range => rfl
  | _ => exact refused

@[simp]
theorem members_rename (v : Value) :
    (v.rename r).members = List.map (·.rename r) <$> v.members := by
  have refused : (Except.error (.type (.notIterable (v.rename r).operandName)) :
      Except Fault (List Value)) = .error (.type (.notIterable v.operandName)) := by
    rw [operandName_rename]
  cases v with
  | str s => simp [members]
  | list | tuple => simp [members]
  | dict => simp [members, Function.comp_def]
  | range => simp [members]
  | array _ _ shape _ => cases shape <;> simp [members]
  | environment => rfl
  | _ => exact refused

@[simp]
theorem memberAt_rename (container : String) (items : List Value) (k : Value) :
    memberAt container (items.map (·.rename r)) (k.rename r) =
      (·.rename r) <$> memberAt container items k := by
  simp only [memberAt, Grid.index?_rename, operandName_rename, map_bind]
  refine bind_congr fun i => ?_
  cases i with
  | none => rfl
  | some i =>
      simp only [List.length_map]
      split
      · rfl
      · cases position? items.length i with
        | none => rfl
        | some place =>
            simp only [Option.bind_some, List.getElem?_map]
            cases items[place]? <;> rfl

variable {r} {frames frames' : Nat → Frame} (renamed : r.Frames frames frames')
include renamed

theorem entryAt_rename (entries : List (Value × Value)) (k : Value) :
    entryAt frames' (entries.map r.entry) (k.rename r) = (·.rename r) <$> entryAt frames entries k := by
  have found : (entries.map r.entry).find? (fun e => sameKey e.1 (k.rename r)) =
      (entries.find? fun e => sameKey e.1 k).map r.entry := by
    simp [List.find?_map, Function.comp_def]
  simp only [entryAt, checkKey_rename, found, showWith_rename renamed, map_bind]
  refine bind_congr fun _ => ?_
  cases entries.find? fun e => sameKey e.1 k with
  | none => simp only [Option.map_none]; cases showWith frames k <;> rfl
  | some e => rfl

omit renamed in
theorem thunkKindAt_rename (k : Value) :
    thunkKindAt (k.rename r) = (·.rename r) <$> thunkKindAt k := by
  cases k with
  | tuple _ items =>
      simp only [thunkKindAt, Value.rename, renameAll_eq, List.length_map]
      split <;> rfl
  | _ => rfl

theorem itemAt_rename (o k : Value) :
    (o.rename r).itemAt frames' (k.rename r) = (·.rename r) <$> o.itemAt frames k := by
  have refused : (Except.error (.type (.notSubscriptable (o.rename r).operandName)) :
      Except Fault Value) = .error (.type (.notSubscriptable o.operandName)) := by
    rw [operandName_rename]
  cases o with
  | environment id outer =>
      have names : (k.rename r).operandName = k.operandName := operandName_rename r k
      have looked (name : String) := lookup_rename renamed name (.environment id outer)
      cases k with
      | str name => exact looked name
      | _ => exact congrArg (fun t => (.error (.type (.attributeName t)) : Except Fault Value)) names
  | str s => simpa [itemAt] using memberAt_rename r "string" (characters s) k
  | list _ items => simp [itemAt]
  | tuple _ items => simp [itemAt]
  | range _ start stop step =>
      simp only [Value.rename, itemAt, Grid.index?_rename, operandName_rename, map_bind]
      refine bind_congr fun i => ?_
      cases i with
      | none => rfl
      | some i => dsimp only; split <;> rfl
  | dict _ entries => simpa [itemAt] using entryAt_rename renamed entries k
  | array _ dtype shape data => simpa [itemAt] using Grid.part_rename r ⟨dtype, shape, data⟩ k
  | kind kd =>
      cases kd with
      | thunk => exact thunkKindAt_rename k
      | _ => rfl
  | _ => exact refused

omit renamed

/-! Operators. -/

variable (r)

@[simp]
theorem ofNumber_rename (mark : Nat) (n : Number) :
    (ofNumber mark n).rename r = ofNumber (r.mark mark) n := by
  cases n <;> rfl

@[simp]
theorem isArray_rename (v : Value) : (v.rename r).isArray = v.isArray := by
  cases v <;> rfl

@[simp]
theorem unsupported_rename (op : BinaryOp) (a b : Value) :
    unsupported op (a.rename r) (b.rename r) = (·.rename r) <$> unsupported op a b := by
  simp only [unsupported, operandName_rename]
  rfl

@[simp]
theorem numeric?_rename (mark : Nat) (op : Number → Number → Except Fault Number) (a b : Value) :
    numeric? (r.mark mark) op (a.rename r) (b.rename r) =
      (numeric? mark op a b).map ((·.rename r) <$> ·) := by
  simp only [numeric?, number?_rename]
  split <;> simp

@[simp]
theorem repeatCount_rename (b : Value) : (b.rename r).repeatCount = b.repeatCount := by
  simp only [repeatCount, Grid.index?_rename, operandName_rename]

theorem repeated_map {α β : Type} (f : α → β) (n : Nat) (items : List α) :
    repeated n (items.map f) = (repeated n items).map f := by
  simp [repeated, List.map_flatten]

@[simp]
theorem repeatMembers_rename (n : Nat) (items : List Value) :
    repeatMembers n (items.map (·.rename r)) = List.map (·.rename r) <$> repeatMembers n items := by
  simp only [repeatMembers, List.isEmpty_map, List.length_map, repeated_map]
  split_ifs <;> rfl

@[simp]
theorem repeat?_rename (mark : Nat) (a b : Value) :
    repeat? (r.mark mark) (a.rename r) (b.rename r) =
      (repeat? mark a b).map ((·.rename r) <$> ·) := by
  cases a <;> simp [repeat?]

theorem getD_map_rename (x : Option (Except Fault Value)) (y : Except Fault Value) :
    (x.map ((·.rename r) <$> ·)).getD ((·.rename r) <$> y) = (·.rename r) <$> x.getD y := by
  cases x <;> rfl

theorem or_map_rename (x y : Option (Except Fault Value)) :
    (x.map ((·.rename r) <$> ·)).or (y.map ((·.rename r) <$> ·)) =
      (x.or y).map ((·.rename r) <$> ·) := by
  cases x <;> rfl

theorem plus_rename (mark : Nat) (a b : Value) :
    plus (r.mark mark) (a.rename r) (b.rename r) = (·.rename r) <$> plus mark a b := by
  have numbers : (numeric? (r.mark mark) Number.add (a.rename r) (b.rename r)).getD
      (unsupported .add (a.rename r) (b.rename r)) =
      (·.rename r) <$> (numeric? mark Number.add a b).getD (unsupported .add a b) := by
    rw [numeric?_rename, unsupported_rename, getD_map_rename]
  have joined : (Except.error (.type (.cannotConcatenate (a.rename r).operandName
        (b.rename r).operandName)) : Except Fault Value) =
      .error (.type (.cannotConcatenate a.operandName b.operandName)) := by
    rw [operandName_rename, operandName_rename]
  cases a with
  | str | list | tuple => cases b <;> first | exact joined | simp [plus]
  | _ => exact numbers

theorem times_rename (mark : Nat) (a b : Value) :
    times (r.mark mark) (a.rename r) (b.rename r) = (·.rename r) <$> times mark a b := by
  simp only [times, numeric?_rename, repeat?_rename, or_map_rename, unsupported_rename,
    getD_map_rename]

theorem compute_rename (mark : Nat) (op : BinaryOp) (a b : Value) :
    compute (r.mark mark) op (a.rename r) (b.rename r) = (·.rename r) <$> compute mark op a b := by
  cases op with
  | add => exact plus_rename r mark a b
  | mul => exact times_rename r mark a b
  | _ => simp only [compute, numeric?_rename, unsupported_rename, getD_map_rename]

theorem reflected_rename {arrays arrays' : OrderOp → Value → Value → Except Fault Value}
    (equivariant : Equivariant r arrays arrays') :
    Equivariant r (reflected arrays) (reflected arrays') := by
  intro op a b
  simp only [reflected, isArray_rename, equivariant op a b, equivariant op.flip b a]
  split_ifs <;> rfl

/-- Comparing and computing with arrays gives renamed results for renamed operands. -/
structure Elementwise.Renamed (arrays arrays' : Elementwise) : Prop where
  arithmetic : ∀ op a b,
    arrays'.arithmetic op (a.rename r) (b.rename r) = (·.rename r) <$> arrays.arithmetic op a b
  order : Equivariant r arrays.order arrays'.order
  equality : ∀ a b,
    arrays'.equality (a.rename r) (b.rename r) = (·.rename r) <$> arrays.equality a b

variable {r}

theorem operateWith_rename {arrays arrays' : Elementwise} {reader reader' : Template.Reader}
    (elementwise : Elementwise.Renamed r arrays arrays')
    (readers : Template.Reader.Renamed r reader reader') (mark : Nat) (op : BinaryOp) (a b : Value) :
    operateWith arrays' reader' (r.mark mark) op (a.rename r) (b.rename r) =
      (·.rename r) <$> operateWith arrays reader mark op a b := by
  have ordered (op : OrderOp) := orderedWith_rename (reflected_rename r elementwise.order) op a b
  have computed (op : BinaryOp) : (if (a.rename r).isArray || (b.rename r).isArray then
        arrays'.arithmetic op (a.rename r) (b.rename r)
      else compute (r.mark mark) op (a.rename r) (b.rename r)) =
      (·.rename r) <$> (if a.isArray || b.isArray then arrays.arithmetic op a b
        else compute mark op a b) := by
    simp only [isArray_rename, elementwise.arithmetic, compute_rename]
    split_ifs <;> rfl
  cases op with
  | identical => simp [operateWith]
  | less => exact ordered .less
  | lessEqual => exact ordered .lessEqual
  | equal =>
      simp only [operateWith, isArray_rename, elementwise.equality, equal_rename]
      split_ifs <;> simp
  | mod =>
      cases a with
      | str s => simp [operateWith, Template.fill_rename readers]
      | _ => exact computed .mod
  | add | sub | mul | floorDiv => exact computed _

end Knot.Value

namespace Knot.Grid

open Value

variable (r : Renaming)

@[simp]
theorem className_rename (x : Operand) : className (x.rename r) = className x := rfl

@[simp]
theorem wordOf_rename (dtype : DType) (plain : Bool) (v : Value) :
    wordOf dtype plain (v.rename r) = wordOf dtype plain v := by
  simp only [wordOf, toInteger_rename]

variable {r}

section

variable {objects objects' : BinaryOp → Value → Value → Except Fault Value}
  (equivariant : ∀ op a b,
    objects' op (a.rename r) (b.rename r) = (·.rename r) <$> objects op a b)
include equivariant

theorem elementOp_rename (op : BinaryOp) (dtype : DType) (x y : Operand) (a b : Value) :
    elementOp objects' op dtype (x.rename r) (y.rename r) (a.rename r) (b.rename r) =
      (·.rename r) <$> elementOp objects op dtype x y a b := by
  cases dtype <;> simp [elementOp, equivariant]

theorem arithmetic_rename (op : BinaryOp) (a b : Value) :
    arithmetic objects' op (a.rename r) (b.rename r) = rename r <$> arithmetic objects op a b := by
  have cells (dtype : DType) (x y : Operand) (pairs : List (Value × Value)) :
      (pairs.map r.entry).mapM (fun p =>
        elementOp objects' op dtype (x.rename r) (y.rename r) p.1 p.2) =
      List.map (·.rename r) <$> pairs.mapM (fun p => elementOp objects op dtype x y p.1 p.2) := by
    rw [mapM_of_map, ← mapM_map_result]
    simp only [Renaming.entry, elementOp_rename equivariant]
  simp only [arithmetic, operands_rename, bind_map_left, Operand.rename_grid, rename_dtype,
    meeting_rename, cells, map_bind, map_pure, rename_mk]

end

section

variable {objects objects' : OrderOp → Value → Value → Except Fault Value}
  (equivariant : Equivariant r objects objects')
include equivariant

theorem elementOrder_rename (op : OrderOp) (left right : DType) (a b : Value) :
    elementOrder objects' op left right (a.rename r) (b.rename r) =
      elementOrder objects op left right a b := by
  simp only [elementOrder, equivariant op a b, bind_map_left, truth_rename, elementText_rename,
    toDouble_rename, toInteger_rename]

theorem order_rename (op : OrderOp) (a b : Value) :
    Grid.order objects' op (a.rename r) (b.rename r) = rename r <$> Grid.order objects op a b := by
  have checked (x y : Operand) : checkOrder op (x.rename r) (y.rename r) = checkOrder op x y := rfl
  simp only [Grid.order, operands_rename, bind_map_left, Operand.rename_grid, rename_dtype,
    meeting_rename, checked, mapM_of_map, Renaming.entry, elementOrder_rename equivariant, map_bind,
    map_pure, rename_mk, List.map_map, Function.comp_def, Value.rename]

end

theorem equality_rename (a b : Value) :
    equality (a.rename r) (b.rename r) = rename r <$> equality a b := by
  simp only [equality, operands_rename, bind_map_left, Operand.rename_grid,
    equalities_rename (Value.equal_rename r), map_bind, map_pure, rename_mk, List.map_map,
    Function.comp_def, Value.rename]

@[simp]
theorem result_rename (mark : Nat) (g : Grid) :
    result (r.mark mark) (g.rename r) = (result mark g).rename r := by
  simp only [result, toValue_rename]
  cases g.toValue <;> rfl

end Knot.Grid

namespace Knot.Value

variable {r : Renaming} {reader reader' : Template.Reader}
  (readers : Template.Reader.Renamed r reader reader')

theorem orderAt_rename (depth mark : Nat) :
    Equivariant r (operateAt.orderAt depth mark) (operateAt.orderAt depth (r.mark mark)) := by
  induction depth generalizing mark with
  | zero =>
      intro op a b
      have cells : Equivariant r (orderedWith fun _ a b => unsupported .less a b)
          (orderedWith fun _ a b => unsupported .less a b) :=
        fun op a b => orderedWith_rename (fun _ a b => unsupported_rename r .less a b) op a b
      simp only [operateAt.orderAt, Grid.order_rename cells, Functor.map_map, Grid.result_rename]
  | succ depth ih =>
      intro op a b
      have inner := ih 0
      rw [r.mark_zero] at inner
      have cells : Equivariant r (orderedWith (reflected (operateAt.orderAt depth 0)))
          (orderedWith (reflected (operateAt.orderAt depth 0))) :=
        fun op a b => orderedWith_rename (reflected_rename r inner) op a b
      simp only [operateAt.orderAt, Grid.order_rename cells, Functor.map_map, Grid.result_rename]

include readers

theorem operateAt_rename (depth mark : Nat) (op : BinaryOp) (a b : Value) :
    operateAt reader' depth (r.mark mark) op (a.rename r) (b.rename r) =
      (·.rename r) <$> operateAt reader depth mark op a b := by
  induction depth generalizing mark op a b with
  | zero =>
      refine operateWith_rename ⟨?_, ?_, ?_⟩ readers mark op a b
      · exact fun op a b => unsupported_rename r op a b
      · exact fun op a b => unsupported_rename r .less a b
      · exact fun a b => unsupported_rename r .equal a b
  | succ depth ih =>
      have inner := ih 0
      rw [r.mark_zero] at inner
      refine operateWith_rename ⟨?_, orderAt_rename depth mark, ?_⟩ readers mark op a b
      · intro op a b
        simp only [Grid.arithmetic_rename inner, Functor.map_map, Grid.result_rename]
      · intro a b
        simp only [Grid.equality_rename, Functor.map_map, Grid.result_rename]

theorem operate_rename (mark : Nat) (op : BinaryOp) (a b : Value) :
    operate reader' (r.mark mark) op (a.rename r) (b.rename r) =
      (·.rename r) <$> operate reader mark op a b := by
  simp only [operate, arrayDepth_rename, operateAt_rename readers]

end Knot.Value
