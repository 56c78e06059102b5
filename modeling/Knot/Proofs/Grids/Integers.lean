import Knot.Check.Assertion
import Mathlib.Data.List.Forall2

/-!
Grids of integers. A list of integers, nested as deep as a shape has axes, makes a grid that holds the
very integers of the list, row by row, unless words with and without a sign meet in it that only doubles
hold together.
-/

namespace Knot.Grid

/-- A list nested as deep as a shape has axes, and the integers in it, row by row. An empty list has one
axis, since nothing tells of more. -/
def IsNest : List Nat → List Int → Value → Prop
  | [], ints, v => ∃ i, ints = [i] ∧ v = .int i
  | n :: shape, ints, v => ∃ mark items parts, v = .list mark items ∧ items.length = n ∧
      (n = 0 → shape = []) ∧ ints = List.flatten parts ∧ List.Forall₂ (IsNest shape) parts items

/-- Integers that all are words, some of them with a sign and some too large for one. -/
def Mixed (ints : List Int) : Prop :=
  (∀ i ∈ ints, Word.isSigned i ∨ Word.isUnsigned i) ∧ (∃ i ∈ ints, Word.isSigned i) ∧
    ∃ i ∈ ints, ¬Word.isSigned i

/-- The types whose elements are integers as they are. -/
def isExact : DType → Bool
  | .int64 | .uint64 | .object => true
  | _ => false

/-! The type of all integers together. -/

theorem intType_signed {i : Int} (signed : Word.isSigned i) : intType i = .int64 := if_pos signed

theorem intType_unsigned {i : Int} (signed : ¬Word.isSigned i) (unsigned : Word.isUnsigned i) :
    intType i = .uint64 := by
  rw [intType, if_neg signed, if_pos unsigned]

theorem intType_object {i : Int} (signed : ¬Word.isSigned i) (unsigned : ¬Word.isUnsigned i) :
    intType i = .object := by
  rw [intType, if_neg signed, if_neg unsigned]

theorem foldl_join_object (types : List DType) : types.foldl join .object = .object := by
  induction types with
  | nil => rfl
  | cons d types ih => simpa [join] using ih

theorem foldl_join_of_mem_object {types : List DType} (first : DType) (member : .object ∈ types) :
    types.foldl join first = .object := by
  induction types generalizing first with
  | nil => cases member
  | cons d types ih =>
      cases member with
      | head =>
          have joined : join first .object = .object := by cases first <;> rfl
          rw [List.foldl_cons, joined, foldl_join_object]
      | tail _ member => exact ih _ member

theorem joinAll_of_mem_object {types : List DType} (member : .object ∈ types) :
    joinAll types = .object := by
  cases types with
  | nil => cases member
  | cons d types =>
      cases member with
      | head => exact foldl_join_object types
      | tail _ member => exact foldl_join_of_mem_object d member

theorem joinAll_of_all {d : DType} (idem : join d d = d) {types : List DType} (some : types ≠ [])
    (all : ∀ t ∈ types, t = d) : joinAll types = d := by
  cases types with
  | nil => exact absurd rfl some
  | cons first types =>
      obtain rfl := all first (.head _)
      clear some
      induction types with
      | nil => rfl
      | cons t types ih =>
          obtain rfl := all t (.tail _ (.head _))
          change List.foldl join (join t t) types = t
          rw [idem]
          exact ih fun u member => all u (by
            cases member with
            | head => exact .head _
            | tail _ member => exact .tail _ (.tail _ member))

/-- What the elements of a type may be, so that the type holds each of them as it is. -/
def Fits (dtype : DType) (i : Int) : Prop :=
  match dtype with
  | .int64 => Word.isSigned i
  | .uint64 => Word.isUnsigned i
  | _ => True

/-- Integers that are not mixed get a type that holds each of them. -/
theorem joinAll_intType {ints : List Int} (unmixed : ¬Mixed ints) (some : ints ≠ []) :
    isExact (joinAll (ints.map intType)) = true ∧ ∀ i ∈ ints, Fits (joinAll (ints.map intType)) i := by
  have types : ints.map intType ≠ [] := fun none => some (List.map_eq_nil_iff.mp none)
  by_cases words : ∀ i ∈ ints, Word.isSigned i ∨ Word.isUnsigned i
  · by_cases signed : ∀ i ∈ ints, Word.isSigned i
    · have same : joinAll (ints.map intType) = .int64 := by
        refine joinAll_of_all rfl types fun t member => ?_
        obtain ⟨i, inside, rfl⟩ := List.mem_map.mp member
        exact intType_signed (signed i inside)
      rw [same]
      exact ⟨rfl, signed⟩
    · have unsigned : ∀ i ∈ ints, ¬Word.isSigned i := by
        intro i inside sign
        push Not at signed
        exact unmixed ⟨words, ⟨i, inside, sign⟩, signed⟩
      have same : joinAll (ints.map intType) = .uint64 := by
        refine joinAll_of_all rfl types fun t member => ?_
        obtain ⟨i, inside, rfl⟩ := List.mem_map.mp member
        exact intType_unsigned (unsigned i inside) ((words i inside).resolve_left (unsigned i inside))
      rw [same]
      exact ⟨rfl, fun i inside => (words i inside).resolve_left (unsigned i inside)⟩
  · push Not at words
    obtain ⟨i, inside, signed, unsigned⟩ := words
    have same : joinAll (ints.map intType) = .object :=
      joinAll_of_mem_object (List.mem_map.mpr ⟨i, inside, intType_object signed unsigned⟩)
    rw [same]
    exact ⟨rfl, fun _ _ => trivial⟩

/-! What is discovered of a nest. -/

theorem shapesOf_eq_replicate {shape : List Nat} {items : List Value}
    (each : ∀ v ∈ items, shapeOf v = shape) : shapesOf items = List.replicate items.length shape := by
  induction items with
  | nil => rfl
  | cons v items ih =>
      rw [shapesOf, each v (.head _), ih fun u member => each u (.tail _ member)]
      rfl

theorem commonStart_self (shape : List Nat) : commonStart shape shape = shape := by
  induction shape with
  | nil => rfl
  | cons n shape ih => rw [commonStart, if_pos rfl, ih]

theorem commonShape_replicate (n : Nat) (shape : List Nat) :
    commonShape (List.replicate (n + 1) shape) = shape := by
  change (List.replicate n shape).foldl commonStart shape = shape
  induction n with
  | zero => rfl
  | succ n ih =>
      rw [List.replicate_succ, List.foldl_cons, commonStart_self]
      exact ih

/-- What holds of each part of a nest, with the integers that it has. -/
theorem forall₂_mem {α β : Type} {R : α → β → Prop} {as : List α} {bs : List β}
    (all : List.Forall₂ R as bs) : ∀ b ∈ bs, ∃ a ∈ as, R a b := by
  induction all with
  | nil => intro b member; cases member
  | cons head _ ih =>
      intro b member
      cases member with
      | head => exact ⟨_, .head _, head⟩
      | tail _ member =>
          obtain ⟨a, inside, related⟩ := ih b member
          exact ⟨a, .tail _ inside, related⟩

theorem shapeOf_nest {shape : List Nat} {ints : List Int} {v : Value} (nest : IsNest shape ints v) :
    shapeOf v = shape := by
  induction shape generalizing ints v with
  | nil =>
      obtain ⟨i, -, rfl⟩ := nest
      rfl
  | cons n shape ih =>
      obtain ⟨mark, items, parts, rfl, length, bare, -, all⟩ := nest
      have each : ∀ u ∈ items, shapeOf u = shape := by
        intro u member
        obtain ⟨part, -, inner⟩ := forall₂_mem all u member
        exact ih inner
      rw [shapeOf, shapesOf_eq_replicate each, length]
      cases n with
      | zero => rw [bare rfl]; rfl
      | succ n => rw [commonShape_replicate]

theorem elements_nest {shape : List Nat} {ints : List Int} {v : Value} (nest : IsNest shape ints v) :
    elements shape v = ints.map fun i => { value := .int i } := by
  induction shape generalizing ints v with
  | nil =>
      obtain ⟨i, rfl, rfl⟩ := nest
      rfl
  | cons n shape ih =>
      obtain ⟨mark, items, parts, rfl, -, -, rfl, all⟩ := nest
      rw [elements]
      induction all with
      | nil => rfl
      | cons head _ inner => rw [elementsAll, ih head, inner, List.flatten_cons, List.map_append]

theorem typesOf_nest {shape : List Nat} {ints : List Int} {v : Value} (nest : IsNest shape ints v) :
    typesOf shape.length v = ints.map intType := by
  induction shape generalizing ints v with
  | nil =>
      obtain ⟨i, rfl, rfl⟩ := nest
      rfl
  | cons n shape ih =>
      obtain ⟨mark, items, parts, rfl, -, -, rfl, all⟩ := nest
      rw [List.length_cons, typesOf]
      induction all with
      | nil => rfl
      | cons head _ inner => rw [typesOfAll, ih head, inner, List.flatten_cons, List.map_append]

/-! Elements of the type that all integers get. -/

theorem given_int {dtype : DType} (holds : isExact dtype = true) {i : Int} (fits : Fits dtype i) :
    Reading.simple.given dtype (.int i) = .ok (.int i) := by
  cases dtype with
  | int64 =>
      have word : fitWord .int64 i = .ok i := if_pos (intType_signed fits)
      change Value.int <$> fitWord .int64 i = _
      rw [word]
      rfl
  | uint64 =>
      have word : fitWord .uint64 i = .ok i := if_pos fits
      change Value.int <$> fitWord .uint64 i = _
      rw [word]
      rfl
  | object => rfl
  | _ => cases holds

theorem mapM_cast {dtype : DType} (holds : isExact dtype = true) {ints : List Int}
    (fits : ∀ i ∈ ints, Fits dtype i) :
    (ints.map fun i => ({ value := .int i } : Element)).mapM (Reading.simple.cast dtype) =
      .ok (ints.map .int) := by
  induction ints with
  | nil => rfl
  | cons i ints ih =>
      have first : Reading.simple.cast dtype { value := .int i } = .ok (.int i) :=
        given_int holds (fits i (.head _))
      rw [List.map_cons, List.mapM_cons, first, ih fun j member => fits j (.tail _ member)]
      rfl

/-- The grid of a nest of integers that are not mixed holds the very integers of the nest. -/
theorem ofValue_nest {shape : List Nat} {ints : List Int} {v : Value} (nest : IsNest shape ints v)
    (unmixed : ¬Mixed ints) :
    ∃ dtype, (isExact dtype = true ∨ ints = []) ∧ ofValue v = .ok ⟨dtype, shape, ints.map .int⟩ := by
  have discovered : ofValue v = make .simple none v := by
    cases shape with
    | nil => obtain ⟨i, -, rfl⟩ := nest; rfl
    | cons n shape => obtain ⟨mark, items, parts, rfl, -⟩ := nest; rfl
  have flat : ((ints.map fun i => ({ value := .int i } : Element)).any (isRow ·.value)) = false := by
    rw [List.any_map]
    exact List.any_eq_false.mpr fun i _ => by simp [isRow]
  have made : ofValue v = (do
      let dtype ← Reading.simple.fitted (joinAll (ints.map intType)) (ints.map fun i => { value := .int i })
      return ⟨dtype, shape, ← (ints.map fun i => { value := .int i }).mapM (Reading.simple.cast dtype)⟩) := by
    rw [discovered, make, shapeOf_nest nest, elements_nest nest, typesOf_nest nest]
    simp [flat]
  by_cases empty : ints = []
  · subst empty
    exact ⟨.float64, .inr rfl, made⟩
  · obtain ⟨holds, fits⟩ := joinAll_intType unmixed empty
    have fitted : Reading.simple.fitted (joinAll (ints.map intType)) (ints.map fun i => { value := .int i }) =
        .ok (joinAll (ints.map intType)) := by
      generalize joinAll (ints.map intType) = dtype at holds
      cases dtype with
      | int64 | uint64 | object => rfl
      | _ => cases holds
    refine ⟨_, .inl holds, ?_⟩
    rw [made, fitted]
    simp only [bind, Except.bind, mapM_cast holds fits]
    rfl

end Knot.Grid
