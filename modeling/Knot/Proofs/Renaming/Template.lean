import Knot.Proofs.Renaming.Grid
import Knot.Template.Filling

/-!
Templates filled with renamed values: the text is the same, where the values show the same texts.
-/

namespace Knot.Template

variable {r : Renaming}

/-- A value shows the same under other marks, and a renamed mapping gives renamed values. -/
structure Reader.Renamed (r : Renaming) (reader reader' : Reader) : Prop where
  plain : ∀ v, reader'.plain (v.rename r) = reader.plain v
  shown : ∀ v, reader'.shown (v.rename r) = reader.shown v
  item : ∀ m k, reader'.item (m.rename r) (k.rename r) = (·.rename r) <$> reader.item m k

def Supply.rename (r : Renaming) (s : Supply) : Supply :=
  ⟨s.mapping.map (·.rename r), s.left.map (·.rename r)⟩

@[simp]
theorem Supply.rename_mapping (s : Supply) :
    (s.rename r).mapping = s.mapping.map (·.rename r) := rfl

@[simp]
theorem Supply.rename_left (s : Supply) : (s.rename r).left = s.left.map (·.rename r) := rfl

/-- A result with what is left of the supply renamed. -/
abbrev leaving (r : Renaming) {α : Type} (x : α × Supply) : α × Supply := (x.1, x.2.rename r)

@[simp]
theorem isMapping_rename (v : Value) : isMapping (v.rename r) = isMapping v := by
  cases v <;> rfl

@[simp]
theorem Supply.of_rename (v : Value) : Supply.of (v.rename r) = (Supply.of v).rename r := by
  cases v <;> simp [Supply.of, Supply.rename, isMapping]

@[simp]
theorem Supply.take_rename (s : Supply) :
    (s.rename r).take = (fun x => (x.1.rename r, x.2.rename r)) <$> s.take := by
  obtain ⟨mapping, left⟩ := s
  cases left <;> rfl

theorem wholeElement_rename (letter : Char) (v : Value) :
    wholeElement letter (v.rename r) = wholeElement letter v := by
  simp only [wholeElement, Grid.toInteger_rename, Value.operandName_rename]

@[simp]
theorem wholeNumber_rename (letter : Char) (v : Value) :
    wholeNumber letter (v.rename r) = wholeNumber letter v := by
  have integers := Grid.toInteger_rename r v
  have elements := wholeElement_rename (r := r) letter v
  have refused : (Except.error (.type (.template (.notNumber letter (v.rename r).operandName))) :
      Except Fault Int) = .error (.type (.template (.notNumber letter v.operandName))) := by
    rw [Value.operandName_rename]
  cases v with
  | bool | int => rfl
  | float => exact integers
  | array => exact elements
  | _ => exact refused

@[simp]
theorem properInteger_rename (letter : Char) (v : Value) :
    properInteger letter (v.rename r) = properInteger letter v := by
  simp only [properInteger, Grid.index?_rename, Value.operandName_rename]

@[simp]
theorem writeInteger_rename (p : Place) (letter : Char) (least : Nat) (v : Value) :
    writeInteger p letter least (v.rename r) = writeInteger p letter least v := by
  simp only [writeInteger, properInteger_rename, wholeNumber_rename]

@[simp]
theorem realNumber_rename (v : Value) : realNumber (v.rename r) = realNumber v := by
  have doubles := Grid.toDouble_rename r v
  have refused : (Except.error (.type (.template (.notReal (v.rename r).operandName))) :
      Except Fault Float) = .error (.type (.template (.notReal v.operandName))) := by
    rw [Value.operandName_rename]
  cases v with
  | bool | int | float => exact doubles
  | array mark dtype shape data =>
      rcases shape with _ | ⟨n, shape⟩
      · rcases data with _ | ⟨u, _ | ⟨u', data⟩⟩
        · exact doubles
        · cases u <;> first | rfl | exact doubles
        · cases u <;> exact doubles
      · exact doubles
  | _ => exact refused

@[simp]
theorem writeDouble_rename (p : Place) (letter : Char) (precision : Nat) (v : Value) :
    writeDouble p letter precision (v.rename r) = writeDouble p letter precision v := by
  simp only [writeDouble, realNumber_rename]

@[simp]
theorem writeCodePoint_rename (v : Value) : writeCodePoint (v.rename r) = writeCodePoint v := by
  simp only [writeCodePoint, Grid.index?_rename]

@[simp]
theorem writeCharacter_rename (v : Value) : writeCharacter (v.rename r) = writeCharacter v := by
  have indexed := writeCodePoint_rename (r := r) v
  cases v with
  | str => rfl
  | _ => exact indexed

variable {reader reader' : Reader} (renamed : Reader.Renamed r reader reader')
include renamed

theorem write_rename (p : Place) (letter : Char) (precision : Option Nat) (v : Value) :
    write reader' p letter precision (v.rename r) = write reader p letter precision v := by
  simp only [write, renamed.plain, renamed.shown, writeInteger_rename, writeDouble_rename,
    writeCharacter_rename]

theorem keyed_rename (key : Key) (s : Supply) :
    keyed reader' key (s.rename r) = Supply.rename r <$> keyed reader key s := by
  obtain ⟨mapping, left⟩ := s
  cases key with
  | absent => rfl
  | unclosed => cases mapping <;> rfl
  | name key =>
      cases mapping with
      | none => rfl
      | some mapping =>
          have item := renamed.item mapping (.str key)
          simp only [Value.rename] at item
          simp only [keyed, Supply.rename, Option.map_some, item, map_bind, bind_map_left, map_pure]
          rfl

omit renamed in
@[simp]
theorem takeInteger_rename (s : Supply) :
    takeInteger (s.rename r) = leaving r <$> takeInteger s := by
  obtain ⟨mapping, left⟩ := s
  cases left with
  | nil => rfl
  | cons v left => cases v <;> rfl

omit renamed in
@[simp]
theorem takeWidth_rename (amount : Amount) (s : Supply) :
    takeWidth amount (s.rename r) = leaving r <$> takeWidth amount s := by
  cases amount with
  | fromValues =>
      simp only [takeWidth, takeInteger_rename, bind_map_left, map_bind]
      refine bind_congr fun x => ?_
      split <;> rfl
  | _ => rfl

omit renamed in
@[simp]
theorem takePrecision_rename (amount : Amount) (s : Supply) :
    takePrecision amount (s.rename r) = leaving r <$> takePrecision amount s := by
  cases amount with
  | fromValues =>
      simp only [takePrecision, takeInteger_rename, bind_map_left, map_bind]
      refine bind_congr fun x => ?_
      split <;> rfl
  | _ => rfl

theorem fillField_rename (p : Place) (letter : Char) (width : Option Int) (precision : Option Nat)
    (s : Supply) :
    fillField reader' p letter width precision (s.rename r) =
      leaving r <$> fillField reader p letter width precision s := by
  simp only [fillField, Supply.take_rename, bind_map_left, map_bind, write_rename renamed]
  refine bind_congr fun x => ?_
  split_ifs
  · rfl
  · simp only [map_bind]
    exact bind_congr fun w => rfl
  · simp only [map_bind]
    exact bind_congr fun w => rfl

theorem fillPlace_rename (p : Place) (s : Supply) :
    fillPlace reader' p (s.rename r) = leaving r <$> fillPlace reader p s := by
  simp only [fillPlace, keyed_rename renamed, bind_map_left, map_bind, takeWidth_rename,
    takePrecision_rename, fillField_rename renamed]
  refine bind_congr fun s => bind_congr fun width => bind_congr fun precision => ?_
  cases p.letter with
  | none => rfl
  | some letter =>
      simp only [map_bind]
      refine bind_congr fun x => ?_
      have unused : ((x.2.rename r).mapping.isSome && !(x.2.rename r).left.isEmpty) =
          (x.2.mapping.isSome && !x.2.left.isEmpty) := by simp
      simp only [unused]
      split_ifs <;> rfl

theorem fillPieces_rename (pieces : List Piece) (s : Supply) :
    fillPieces reader' (s.rename r) pieces = fillPieces reader s pieces := by
  induction pieces generalizing s with
  | nil => simp [fillPieces]
  | cons piece rest ih =>
      cases piece with
      | text c => simp only [fillPieces, ih]
      | place p => simp only [fillPieces, fillPlace_rename renamed, bind_map_left, ih]

theorem fill_rename (template : String) (values : Value) :
    fill reader' template (values.rename r) = fill reader template values := by
  simp only [fill, Supply.of_rename, fillPieces_rename renamed]

end Knot.Template
