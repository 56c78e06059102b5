import Knot.Grid.Operand
import Knot.Grid.Selection
import Knot.Proofs.Renaming.Value
import Mathlib.Data.List.Basic

/-!
Grids of renamed values: the shape, the type and the numbers of a grid show no marks, so discovering
a grid, stretching it and selecting from it commute with renaming its elements.
-/

namespace Knot

theorem mapM_map_result {m : Type → Type} [Monad m] [LawfulMonad m] {α β γ : Type} (f : α → m β)
    (g : β → γ) (xs : List α) : xs.mapM (fun x => g <$> f x) = List.map g <$> xs.mapM f := by
  induction xs with
  | nil => simp
  | cons x xs ih => simp [ih]

theorem mapM_of_map {m : Type → Type} [Monad m] [LawfulMonad m] {α β γ : Type} (f : β → m γ)
    (g : α → β) (xs : List α) : (xs.map g).mapM f = xs.mapM fun x => f (g x) := by
  induction xs with
  | nil => simp
  | cons x xs ih => simp [ih]

/-- Running over a renamed list gives the renamed results, if that holds at every member. -/
theorem mapM_rename {m : Type → Type} [Monad m] [LawfulMonad m] {α β γ δ : Type} {f : α → m β}
    {f' : γ → m δ} {g : α → γ} {h : β → δ} (step : ∀ x, f' (g x) = h <$> f x) (xs : List α) :
    (xs.map g).mapM f' = List.map h <$> xs.mapM f := by
  rw [mapM_of_map, ← mapM_map_result]
  simp only [step]

namespace Grid

variable (r : Renaming)

def rename (g : Grid) : Grid := ⟨g.dtype, g.shape, g.data.map (·.rename r)⟩

@[simp]
theorem rename_mk (dtype : DType) (shape : List Nat) (data : List Value) :
    rename r ⟨dtype, shape, data⟩ = ⟨dtype, shape, data.map (·.rename r)⟩ := rfl

@[simp]
theorem rename_dtype (g : Grid) : (g.rename r).dtype = g.dtype := rfl

@[simp]
theorem rename_shape (g : Grid) : (g.rename r).shape = g.shape := rfl

@[simp]
theorem rename_data (g : Grid) : (g.rename r).data = g.data.map (·.rename r) := rfl

def Element.rename (e : Element) : Element := { e with value := e.value.rename r }

def Operand.rename (x : Operand) : Operand := { x with grid := x.grid.rename r }

@[simp]
theorem Operand.rename_grid (x : Operand) : (x.rename r).grid = x.grid.rename r := rfl

@[simp]
theorem Operand.rename_plain (x : Operand) : (x.rename r).plain = x.plain := rfl

/-! Discovery. -/

@[simp]
theorem elementType_rename (v : Value) : elementType (v.rename r) = elementType v := by
  cases v <;> rfl

@[simp]
theorem rangeItems_rename (start stop step : Int) :
    (rangeItems start stop step).map (·.rename r) = rangeItems start stop step := by
  simp [rangeItems]

theorem rows_map {α β : Type} (f : α → β) (width count : Nat) (data : List α) :
    rows width count (data.map f) = (rows width count data).map (·.map f) := by
  induction count generalizing data with
  | zero => rfl
  | succ count ih => simp [rows, ← ih, List.map_take, List.map_drop]

@[simp]
theorem stored_rename (dtype : DType) (data : List Value) :
    stored dtype (data.map (·.rename r)) = (stored dtype data).map (Element.rename r) := by
  simp [stored, Element.rename]

theorem elementsAll_eq_flatMap (shape : List Nat) (items : List Value) :
    elementsAll shape items = items.flatMap (elements shape) := by
  induction items with
  | nil => rfl
  | cons v rest ih => simp [elementsAll, ih]

@[simp]
theorem elements_rename (shape : List Nat) (v : Value) :
    elements shape (v.rename r) = (elements shape v).map (Element.rename r) := by
  induction v using Value.induction_children generalizing shape with
  | step v ih =>
      cases shape with
      | nil =>
          cases v <;> simp [elements, Element.rename]
          split <;> simp [rows_map, Element.rename, Function.comp_def]
      | cons n shape =>
          cases v with
          | list _ items | tuple _ items =>
              simp only [Value.rename, Value.renameAll_eq, elements, elementsAll_eq_flatMap,
                List.flatMap_map, List.map_flatMap]
              exact List.flatMap_congr fun u member => ih u member shape
          | range _ start stop step =>
              simp [elements, Element.rename, rangeItems]
          | array _ dtype inner data =>
              simp only [Value.rename, Value.renameAll_eq, elements]
              split <;> simp [rows_map, Element.rename, Function.comp_def]
          | _ => simp [elements, Element.rename]

theorem typesOfAll_eq_flatMap (axes : Nat) (items : List Value) :
    typesOfAll axes items = items.flatMap (typesOf axes) := by
  induction items with
  | nil => rfl
  | cons v rest ih => simp [typesOfAll, ih]

@[simp]
theorem typesOf_rename (axes : Nat) (v : Value) : typesOf axes (v.rename r) = typesOf axes v := by
  induction v using Value.induction_children generalizing axes with
  | step v ih =>
      cases axes with
      | zero => cases v <;> simp [typesOf, elementType]
      | succ axes =>
          cases v with
          | list _ items | tuple _ items =>
              simp only [Value.rename, Value.renameAll_eq, typesOf, typesOfAll_eq_flatMap,
                List.flatMap_map]
              exact List.flatMap_congr fun u member => ih u member axes
          | _ => simp [typesOf, elementType]

theorem shapesOf_eq_map (items : List Value) : shapesOf items = items.map shapeOf := by
  induction items with
  | nil => rfl
  | cons v rest ih => simp [shapesOf, ih]

@[simp]
theorem shapeOf_rename (v : Value) : shapeOf (v.rename r) = shapeOf v := by
  induction v using Value.induction_children with
  | step v ih =>
      cases v with
      | list _ items | tuple _ items =>
          have shapes : items.map (fun u => shapeOf (u.rename r)) = items.map shapeOf :=
            List.map_congr_left fun u member => ih u member
          simp [shapeOf, shapesOf_eq_map, Function.comp_def, shapes]
      | _ => simp [shapeOf]

@[simp]
theorem isRow_rename (v : Value) : isRow (v.rename r) = isRow v := by
  cases v <;> simp [isRow]

@[simp]
theorem elementText_rename (v : Value) : elementText (v.rename r) = elementText v := by
  cases v <;> rfl

@[simp]
theorem toInteger_rename (v : Value) : toInteger (v.rename r) = toInteger v := by
  induction v using Value.induction_children with
  | step v ih =>
      cases v with
      | array _ _ shape data =>
          rcases shape with _ | ⟨n, shape⟩
          · rcases data with _ | ⟨u, _ | ⟨u', data⟩⟩
            · simp [toInteger]
            · simpa [toInteger] using ih u (by simp [Value.children])
            · simp [toInteger]
          · simp [toInteger]
      | method _ owner m =>
          have name := Value.operandName_rename r (.method 0 owner m)
          simp [toInteger] at name ⊢
          exact name
      | _ => simp [toInteger, Value.operandName, Value.kind?]

@[simp]
theorem toDouble_rename (v : Value) : toDouble (v.rename r) = toDouble v := by
  induction v using Value.induction_children with
  | step v ih =>
      cases v with
      | array _ _ shape data =>
          rcases shape with _ | ⟨n, shape⟩
          · rcases data with _ | ⟨u, _ | ⟨u', data⟩⟩
            · simp [toDouble]
            · simpa [toDouble] using ih u (by simp [Value.children])
            · simp [toDouble]
          · simp [toDouble]
      | method _ owner m =>
          have name := Value.operandName_rename r (.method 0 owner m)
          simp [toDouble, Value.number?] at name ⊢
          exact name
      | _ => simp [toDouble, Value.operandName, Value.kind?, Value.number?]

@[simp]
theorem elementTruth_rename (v : Value) : elementTruth (v.rename r) = elementTruth v := by
  cases v <;> simp [elementTruth, Value.number?]

@[simp]
theorem convertWord_rename (dtype : DType) (v : Value) :
    convertWord dtype (v.rename r) = convertWord dtype v := by
  cases v <;> rfl

@[simp]
theorem keptText_rename (width : Nat) (s : String) :
    (keptText width s).rename r = keptText width s := rfl

/-- A value is read the same under other marks. -/
structure Reading.Renamed (reading reading' : Reading) : Prop where
  text : ∀ v, reading'.text (v.rename r) = reading.text v
  truth : ∀ v, reading'.truth (v.rename r) = reading.truth v

theorem Reading.simple_renamed : Reading.Renamed r .simple .simple where
  text _ := by simp [Reading.simple]
  truth _ := by simp [Reading.simple]

variable {r} in
theorem Reading.Renamed.given {reading reading' : Reading} (same : Reading.Renamed r reading reading')
    (dtype : DType) (v : Value) :
    reading'.given dtype (v.rename r) = (·.rename r) <$> reading.given dtype v := by
  cases dtype with
  | object => rfl
  | text width => simp [Reading.given, same.text]
  | bool => simp [Reading.given, same.truth]
  | float64 => simp [Reading.given]
  | int64 | uint64 =>
      have integers := toInteger_rename r v
      cases v <;> simp [Reading.given] at integers ⊢ <;> rw [integers]

@[simp]
theorem converted_rename (dtype : DType) (v : Value) :
    converted dtype (v.rename r) = (·.rename r) <$> converted dtype v := by
  have doubles := toDouble_rename r v
  have words := convertWord_rename r dtype v
  have texts := elementText_rename r v
  have truths := elementTruth_rename r v
  cases dtype <;> cases v <;> simp_all [converted]

theorem Reading.Renamed.cast {reading reading' : Reading} (same : Reading.Renamed r reading reading')
    (dtype : DType) (e : Element) :
    reading'.cast dtype (e.rename r) = (·.rename r) <$> reading.cast dtype e := by
  obtain ⟨v, source⟩ := e
  cases source with
  | none => exact same.given dtype v
  | some d => exact converted_rename r dtype v

theorem Reading.Renamed.fitted {reading reading' : Reading}
    (same : Reading.Renamed r reading reading') (dtype : DType) (data : List Element) :
    reading'.fitted dtype (data.map (Element.rename r)) = reading.fitted dtype data := by
  unfold Reading.fitted
  split
  · rw [mapM_of_map]
    simp only [Element.rename, same.text]
  · rfl

theorem Reading.Renamed.make {reading reading' : Reading} (same : Reading.Renamed r reading reading')
    (requested : Option DType) (v : Value) :
    Grid.make reading' requested (v.rename r) = rename r <$> Grid.make reading requested v := by
  have data : (elements (shapeOf v) v).map (Element.rename r) = elements (shapeOf v) (v.rename r) :=
    (elements_rename r _ v).symm
  have rowed : ((elements (shapeOf v) v).map (Element.rename r)).any (isRow ·.value) =
      (elements (shapeOf v) v).any (isRow ·.value) := by
    simp [Function.comp_def, Element.rename]
  have cells (dtype : DType) := mapM_rename (same.cast r dtype) (elements (shapeOf v) v)
  simp only [Grid.make, shapeOf_rename, typesOf_rename, ← data, rowed, same.fitted, cells]
  split
  · rfl
  · simp only [map_bind, bind_map_left, map_pure, rename_mk]

@[simp]
theorem ofValue_rename (v : Value) : ofValue (v.rename r) = rename r <$> ofValue v := by
  have made := (Reading.simple_renamed r).make r Option.none v
  cases v with
  | array _ dtype shape data => simp [ofValue]
  | _ => exact made

/-! The sides of an operation. -/

@[simp]
theorem plainInteger_rename (beside : DType) (i : Int) :
    Operand.rename r <$> plainInteger beside i = plainInteger beside i := by
  unfold plainInteger
  split <;> simp [Operand.rename]

theorem operand_ofValue (v : Value) :
    (do return ({ grid := ← ofValue (v.rename r) } : Operand)) =
      Operand.rename r <$> (do return ({ grid := ← ofValue v } : Operand)) := by
  simp [Operand.rename]

@[simp]
theorem operand_rename (beside : DType) (v : Value) :
    operand beside (v.rename r) = Operand.rename r <$> operand beside v := by
  have grids := operand_ofValue r v
  cases v with
  | int i => exact (plainInteger_rename r beside i).symm
  | float _ x => simp [operand, Operand.rename]
  | _ => exact grids

@[simp]
theorem operands_rename (a b : Value) :
    operands (a.rename r) (b.rename r) =
      (fun x => (x.1.rename r, x.2.rename r)) <$> operands a b := by
  have both (left : DType) :
      (do return (← operand left (a.rename r), ← operand left (b.rename r))) =
        (fun x => (x.1.rename r, x.2.rename r)) <$>
          (do return (← operand left a, ← operand left b)) := by
    simp
  have firstGrid (left : DType) :
      (do return (({ grid := ← ofValue (a.rename r) } : Operand), ← operand left (b.rename r))) =
        (fun x => (x.1.rename r, x.2.rename r)) <$>
          (do return (({ grid := ← ofValue a } : Operand), ← operand left b)) := by
    simp [Operand.rename]
  have secondGrid (right : DType) :
      (do return (← operand right (a.rename r), ({ grid := ← ofValue (b.rename r) } : Operand))) =
        (fun x => (x.1.rename r, x.2.rename r)) <$>
          (do return (← operand right a, ({ grid := ← ofValue b } : Operand))) := by
    simp [Operand.rename]
  have grids :
      (do return (({ grid := ← ofValue (a.rename r) } : Operand),
        ({ grid := ← ofValue (b.rename r) } : Operand))) =
        (fun x => (x.1.rename r, x.2.rename r)) <$>
          (do return (({ grid := ← ofValue a } : Operand), ({ grid := ← ofValue b } : Operand))) := by
    simp [Operand.rename]
  cases a with
  | array _ left _ _ =>
      cases b with
      | array => exact both left
      | _ => exact firstGrid left
  | _ =>
      cases b with
      | array _ right _ _ => exact secondGrid right
      | _ => exact grids

theorem spread_map {α β : Type} (f : α → β) (shape target : List Nat) (data : List α) :
    spread shape target (data.map f) = (spread shape target data).map f := by
  induction shape generalizing target data with
  | nil => simp [spread]
  | cons n shape ih =>
      cases target with
      | nil => simp [spread]
      | cons m target =>
          simp only [spread, rows_map, List.map_map, Function.comp_def, ih]
          split <;> simp [List.map_flatten, Function.comp_def]

theorem stretch_map {α β : Type} (f : α → β) (shape target : List Nat) (data : List α) :
    stretch shape target (data.map f) = (stretch shape target data).map f :=
  spread_map f _ target data

@[simp]
theorem meeting_rename (a b : Grid) :
    meeting (a.rename r) (b.rename r) = (fun x => (x.1, x.2.map r.entry)) <$> meeting a b := by
  simp only [meeting, rename_shape, rename_data, stretch_map]
  split
  · rfl
  · simp [List.zip_map, Renaming.entry, Prod.map]

/-! Selection. -/

@[simp]
theorem index?_rename (v : Value) : (v.rename r).index? = v.index? := by
  cases v with
  | array _ dtype shape data =>
      rcases shape with _ | ⟨n, shape⟩
      · rcases data with _ | ⟨u, _ | ⟨u', data⟩⟩
        · simp [Value.index?]
        · cases dtype <;> cases u <;> simp [Value.index?]
        · simp [Value.index?]
      · simp [Value.index?]
  | _ => rfl

@[simp]
theorem toValue_rename (g : Grid) : (g.rename r).toValue = g.toValue.rename r := by
  obtain ⟨dtype, shape, data⟩ := g
  rcases shape with _ | ⟨n, shape⟩
  · rcases data with _ | ⟨u, _ | ⟨u', data⟩⟩ <;> simp [toValue]
  · simp [toValue]

@[simp]
theorem parts_rename (g : Grid) : (g.rename r).parts = g.parts.map (rename r) := by
  obtain ⟨dtype, shape, data⟩ := g
  cases shape <;> simp [parts, rows_map, Function.comp_def]

@[simp]
theorem atIndices_rename (axis : Nat) (g : Grid) (indices : List Int) :
    atIndices axis (g.rename r) indices = rename r <$> atIndices axis g indices := by
  induction indices generalizing axis g with
  | nil => rfl
  | cons i rest ih =>
      obtain ⟨dtype, shape, data⟩ := g
      cases shape with
      | nil => rfl
      | cons n inner =>
          simp only [rename_mk, atIndices, map_bind, ← ih, List.map_take, List.map_drop]

@[simp]
theorem gather_rename (g indices : Grid) :
    gather (g.rename r) (indices.rename r) = rename r <$> gather g indices := by
  obtain ⟨dtype, shape, data⟩ := g
  cases shape with
  | nil => rfl
  | cons n inner =>
      have chosen (v : Value) :
          (do
            let place ← axisPlace 0 n (← toInteger (v.rename r))
            return ((((parts ⟨dtype, n :: inner, data⟩).map (rename r))[place]?).map Grid.data).getD []) =
          List.map (·.rename r) <$> (do
            let place ← axisPlace 0 n (← toInteger v)
            return (((parts ⟨dtype, n :: inner, data⟩)[place]?).map Grid.data).getD []) := by
        simp only [toInteger_rename, map_bind, map_pure, List.getElem?_map, Option.map_map]
        refine bind_congr fun i => bind_congr fun place => ?_
        cases (parts ⟨dtype, n :: inner, data⟩)[place]? <;> rfl
      have pieces := parts_rename r ⟨dtype, n :: inner, data⟩
      simp only [rename_mk] at pieces
      simp only [rename_mk, rename_data, rename_shape, gather, mapM_of_map, pieces, chosen]
      rw [mapM_map_result]
      simp only [map_bind, bind_map_left, map_pure, rename_mk, List.map_flatten]

@[simp]
theorem masked_rename (g mask : Grid) :
    masked (g.rename r) (mask.rename r) = rename r <$> masked g mask := by
  have chosen (covers : List (List Value)) :
      ((covers.map (List.map (·.rename r))).zip (mask.data.map (·.rename r))).filter
          (fun x => elementTruth x.2) =
        ((covers.zip mask.data).filter fun x => elementTruth x.2).map
          (Prod.map (List.map (·.rename r)) (·.rename r)) := by
    simp [List.zip_map, List.filter_map, Function.comp_def]
  simp only [masked, rename_shape, rename_data, rename_dtype, rows_map, chosen]
  split_ifs
  · rfl
  · split
    · rfl
    · simp [List.map_flatten, Function.comp_def]

theorem choose_rename (g : Grid) (key : Value) :
    choose (g.rename r) (key.rename r) = rename r <$> choose g key := by
  simp only [choose, ofValue_rename, bind_map_left, map_bind]
  refine bind_congr fun chosen => ?_
  obtain ⟨dtype, shape, data⟩ := chosen
  have gathered (dtype : DType) := gather_rename r g ⟨dtype, shape, data⟩
  have picked := masked_rename r g ⟨dtype, shape, data⟩
  cases dtype with
  | bool => exact picked
  | int64 | uint64 => exact gathered _
  | _ =>
      cases data with
      | nil => exact gathered _
      | cons => cases key <;> rfl

@[simp]
theorem partAt_rename (g : Grid) (i : Int) :
    partAt (g.rename r) i = rename r <$> partAt g i := by
  simp only [partAt, rename_shape, atIndices_rename]
  split
  · split <;> rfl
  · rfl
  · rfl

theorem part_rename (g : Grid) (key : Value) :
    part (g.rename r) (key.rename r) = (·.rename r) <$> part g key := by
  have chosen := choose_rename r g key
  cases key with
  | none => simp [part, ← toValue_rename]
  | int i => simp [part]
  | bool b => cases b <;> simp [part, ← toValue_rename]
  | list | range =>
      simp only [Value.rename, Value.renameAll_eq] at chosen
      simp [part, chosen]
  | tuple mark items =>
      have indices : (items.map (·.rename r)).mapM (fun v => v.index?.toOption.join) =
          items.mapM fun v => v.index?.toOption.join := by
        simp only [mapM_of_map, index?_rename]
      simp only [Value.rename, Value.renameAll_eq, part, indices]
      split
      · simp only [part.wholeAxes, rename_shape, atIndices_rename]
        split <;> simp
      · rfl
  | array mark dtype shape data =>
      rcases shape with _ | ⟨n, shape⟩
      · rcases data with _ | ⟨u, _ | ⟨u', data⟩⟩
        · cases dtype <;> simp_all [part]
        · cases dtype <;> cases u <;> simp_all [part]
        · cases dtype <;> simp_all [part]
      · cases dtype <;> simp_all [part]
  | _ => rfl

end Grid

end Knot
