import Knot.Proofs.Grids.Integers
import Knot.Proofs.Grids.Words

/-!
Grids of data. Numbers, texts, nothing and whatever lists, tuples and dictionaries nest of them make a grid
whose elements are what its type holds, unless rows are not of one length.
-/

namespace Knot

namespace Value

/-- Data without arrays, in which only certain integers occur. -/
inductive Plain (of : Int → Prop) : Value → Prop
  | nothing : Plain of none
  | bool (b : Bool) : Plain of (bool b)
  | int {i : Int} : of i → Plain of (int i)
  | float (mark : Nat) (x : Float) : Plain of (float mark x)
  | str (s : String) : Plain of (str s)
  | list {mark : Nat} {items : List Value} : (∀ v ∈ items, Plain of v) → Plain of (list mark items)
  | tuple {mark : Nat} {items : List Value} : (∀ v ∈ items, Plain of v) → Plain of (tuple mark items)
  | dict {mark : Nat} {entries : List (Value × Value)} : (∀ e ∈ entries, Plain of e.1) →
      (∀ e ∈ entries, Plain of e.2) → Plain of (dict mark entries)

/-- Data without arrays, whatever its integers are. -/
abbrev IsPlain : Value → Prop := Plain fun _ => True

theorem Plain.isPlain {of : Int → Prop} {v : Value} (plain : v.Plain of) : v.IsPlain := by
  induction plain with
  | nothing => exact .nothing
  | bool b => exact .bool b
  | int _ => exact .int trivial
  | float mark x => exact .float mark x
  | str s => exact .str s
  | list _ ih => exact .list ih
  | tuple _ ih => exact .tuple ih
  | dict _ _ keys values => exact .dict keys values

end Value

namespace Grid

/-- What a grid of a type holds. -/
def Held (dtype : DType) (v : Value) : Prop :=
  match dtype, v with
  | .object, v => v.IsPlain
  | .bool, .bool _ => True
  | .int64, .int i => Word.isSigned i
  | .uint64, .int i => Word.isUnsigned i
  | .float64, .float .. => True
  | .text _, .str _ => True
  | _, _ => False

/-- A grid whose elements are what its type holds. -/
def Sound (g : Grid) : Prop := ∀ v ∈ g.data, Held g.dtype v

/-- A value with rows that are not of one length. -/
def Ragged (v : Value) : Prop := (elements (shapeOf v) v).any (isRow ·.value) = true

theorem Held.isPlain {dtype : DType} {v : Value} (held : Held dtype v) : v.IsPlain := by
  cases dtype with
  | object => exact held
  | _ =>
      cases v with
      | bool b => exact .bool b
      | int i => exact .int trivial
      | float mark x => exact .float mark x
      | str s => exact .str s
      | _ => cases held

/-! What is discovered of data. -/

/-- Each element of data is data on its own, and asks for its type. -/
theorem discovered {v : Value} (plain : v.IsPlain) (shape : List Nat) :
    (∀ e ∈ elements shape v, e.value.IsPlain ∧ e.source = none) ∧
      typesOf shape.length v = (elements shape v).map fun e => elementType e.value := by
  have single {v : Value} (plain : v.IsPlain) :
      (∀ e ∈ [({ value := v } : Element)], e.value.IsPlain ∧ e.source = none) ∧
        [elementType v] = [({ value := v } : Element)].map fun e => elementType e.value := by
    refine ⟨fun e member => ?_, rfl⟩
    obtain rfl := List.mem_singleton.mp member
    exact ⟨plain, rfl⟩
  induction shape generalizing v with
  | nil => cases plain <;> exact single (by constructor <;> assumption)
  | cons n shape ih =>
      have members {items : List Value} (all : ∀ u ∈ items, u.IsPlain) :
          (∀ e ∈ elementsAll shape items, e.value.IsPlain ∧ e.source = none) ∧
            typesOfAll shape.length items = (elementsAll shape items).map fun e => elementType e.value := by
        induction items with
        | nil => exact ⟨fun e (member : e ∈ []) => absurd member List.not_mem_nil, rfl⟩
        | cons u items ih' =>
            obtain ⟨first, types⟩ := ih (all u (.head _))
            obtain ⟨rest, types'⟩ := ih' fun u member => all u (.tail _ member)
            rw [elementsAll, typesOfAll, types, types', List.map_append]
            exact ⟨fun e member => (List.mem_append.mp member).elim (first e) (rest e), rfl⟩
      cases plain with
      | list all => exact members all
      | tuple all => exact members all
      | _ => exact single (by constructor <;> assumption)

/-! The type of all elements together. -/

theorem join_join (d t : DType) : join (join d t) t = join d t := by
  cases d <;> cases t <;> simp [join, textWidth] <;> omega

/-- A type that holds what another one holds still does so beside a third. -/
theorem join_keeps {d t : DType} (x : DType) (within : join d t = d) : join (join d x) t = join d x := by
  cases d <;> cases t <;> cases x <;> simp [join, textWidth] at within ⊢ <;> omega

theorem foldl_join_keeps {d t : DType} (types : List DType) (within : join d t = d) :
    join (types.foldl join d) t = types.foldl join d := by
  induction types generalizing d with
  | nil => exact within
  | cons x types ih => exact ih (join_keeps x within)

theorem foldl_join_holds {types : List DType} (first : DType) {t : DType} (member : t ∈ types) :
    join (types.foldl join first) t = types.foldl join first := by
  induction types generalizing first with
  | nil => cases member
  | cons d types ih =>
      cases member with
      | head => exact foldl_join_keeps types (join_join first t)
      | tail _ member => exact ih (join first d) member

theorem join_self (d : DType) : join d d = d := by
  cases d <;> simp [join, textWidth]

/-- The type of all elements holds what the type of each holds. -/
theorem joinAll_holds {types : List DType} {t : DType} (member : t ∈ types) :
    join (joinAll types) t = joinAll types := by
  cases types with
  | nil => cases member
  | cons first types =>
      cases member with
      | head => exact foldl_join_keeps types (join_self t)
      | tail _ member => exact foldl_join_holds first member

/-! Elements of the type that all of them get. -/

theorem intType_cases (i : Int) : intType i = .int64 ∧ Word.isSigned i ∨ intType i = .uint64 ∧ Word.isUnsigned i ∨
    intType i = .object := by
  unfold intType
  by_cases signed : Word.isSigned i
  · exact .inl ⟨if_pos signed, signed⟩
  · rw [if_neg signed]
    by_cases unsigned : Word.isUnsigned i
    · exact .inr (.inl ⟨if_pos unsigned, unsigned⟩)
    · exact .inr (.inr (if_neg unsigned))

/-- A number that a type holds becomes an element of it. -/
theorem given_held {dtype : DType} {v : Value} (plain : v.IsPlain) (flat : isRow v = false)
    (within : join dtype (elementType v) = dtype) :
    ∃ w, Reading.simple.given dtype v = .ok w ∧ Held dtype w := by
  cases dtype with
  | object => exact ⟨v, rfl, plain⟩
  | text width => exact ⟨_, rfl, trivial⟩
  | bool => exact ⟨_, rfl, trivial⟩
  | float64 =>
      have number : ∃ x, toDouble v = .ok x := by
        cases plain with
        | bool b => exact Number.toFloat_word (i := b.toNat) (.inl (by cases b <;> decide))
        | @int i _ =>
            rw [elementType] at within
            rcases intType_cases i with ⟨-, word⟩ | ⟨-, word⟩ | type
            · exact Number.toFloat_word (.inl word)
            · exact Number.toFloat_word (.inr word)
            · rw [type] at within
              cases within
        | float mark x => exact ⟨x, rfl⟩
        | str s => cases within
        | _ => cases within
      obtain ⟨x, made⟩ := number
      exact ⟨.float 0 x, by rw [Reading.given, made]; rfl, trivial⟩
  | int64 =>
      cases plain with
      | bool b => cases b <;> exact ⟨_, rfl, rfl⟩
      | @int i _ =>
          rw [elementType] at within
          rcases intType_cases i with ⟨type, word⟩ | ⟨type, -⟩ | type
          · exact ⟨.int i, given_int rfl word, word⟩
          all_goals
            rw [type] at within
            cases within
      | _ => cases within
  | uint64 =>
      cases plain with
      | bool b => cases b <;> exact ⟨_, rfl, rfl⟩
      | @int i _ =>
          rw [elementType] at within
          rcases intType_cases i with ⟨type, -⟩ | ⟨type, word⟩ | type
          · rw [type] at within
            cases within
          · exact ⟨.int i, given_int rfl word, word⟩
          · rw [type] at within
            cases within
      | _ => cases within

theorem mapM_total {α β : Type} {f : α → Except Fault β} {P : β → Prop} (xs : List α)
    (each : ∀ x ∈ xs, ∃ y, f x = .ok y ∧ P y) : ∃ ys, xs.mapM f = .ok ys ∧ ∀ y ∈ ys, P y := by
  induction xs with
  | nil => exact ⟨[], rfl, fun y member => absurd member List.not_mem_nil⟩
  | cons x xs ih =>
      obtain ⟨y, first, holds⟩ := each x (.head _)
      obtain ⟨ys, rest, all⟩ := ih fun z member => each z (.tail _ member)
      rw [List.mapM_cons, first, rest]
      exact ⟨y :: ys, rfl, List.forall_mem_cons.mpr ⟨holds, all⟩⟩

/-- Elements whose types a type holds become those of a grid of it, with texts that are wide enough. -/
theorem fitted_given {data : List Element} (dtype : DType)
    (each : ∀ e ∈ data, e.value.IsPlain ∧ e.source = none) (flat : ∀ e ∈ data, isRow e.value = false)
    (within : ∀ e ∈ data, join dtype (elementType e.value) = dtype) :
    ∃ dtype' values, Reading.simple.fitted dtype data = .ok dtype' ∧
      data.mapM (Reading.simple.cast dtype') = .ok values ∧ ∀ v ∈ values, Held dtype' v := by
  by_cases bare : dtype = .text 0
  · subst bare
    have fitted : ∃ width, Reading.simple.fitted (.text 0) data = .ok (.text width) := by
      refine Exists.elim (mapM_total (P := fun _ => True) _ ?_) fun widths measured =>
        ⟨widths.foldl max 1, congrArg (fun x : Except Fault (List Nat) =>
          x >>= fun widths => Except.ok (DType.text (widths.foldl max 1))) measured.1⟩
      intro e member
      rw [(each e member).2]
      exact ⟨_, rfl, trivial⟩
    obtain ⟨width, fitted⟩ := fitted
    obtain ⟨values, made, held⟩ := mapM_total (P := Held (.text width))
      (f := Reading.simple.cast (.text width)) data fun e member => by
        rw [Reading.cast, (each e member).2]
        exact ⟨.str _, rfl, trivial⟩
    exact ⟨_, values, fitted, made, held⟩
  · obtain ⟨values, made, held⟩ := mapM_total (P := Held dtype) (f := Reading.simple.cast dtype) data
      fun e member => by
        rw [Reading.cast, (each e member).2]
        exact given_held (each e member).1 (flat e member) (within e member)
    refine ⟨dtype, values, ?_, made, held⟩
    cases dtype with
    | text width =>
        cases width with
        | zero => exact absurd rfl bare
        | succ width => rfl
    | _ => rfl

/-- Data makes a grid of what its type holds, unless it has rows of different lengths. -/
theorem ofValue_plain {v : Value} (plain : v.IsPlain) : (∃ g, ofValue v = .ok g ∧ g.Sound) ∨
    Ragged v ∧ ∃ axes shape, ofValue v = .error (.value (.ragged axes shape)) := by
  have own : ofValue v = make .simple none v := by
    cases plain <;> rfl
  obtain ⟨each, types⟩ := discovered plain (shapeOf v)
  rw [own, make]
  by_cases ragged : (elements (shapeOf v) v).any (isRow ·.value) = true
  · exact .inr ⟨ragged, _, _, if_pos ⟨by decide, ragged⟩⟩
  · have flat : ∀ e ∈ elements (shapeOf v) v, isRow e.value = false := by
      simpa using ragged
    obtain ⟨dtype, values, fitted, made, held⟩ := fitted_given (joinAll (typesOf (shapeOf v).length v))
      each flat fun e member => by
        rw [types]
        exact joinAll_holds (List.mem_map_of_mem member)
    refine .inl ⟨⟨dtype, shapeOf v, values⟩, ?_, held⟩
    rw [if_neg fun both => ragged both.2]
    rw [Option.getD_none, fitted]
    exact congrArg (fun x : Except Fault (List Value) =>
      x >>= fun values => Except.ok (Grid.mk dtype (shapeOf v) values)) made

end Grid

end Knot
