import Knot.Proofs.Checks.Interleaving
import Knot.Proofs.Grids.Integers

/-!
Checks of integers. An array of integers and a list of integers are equal exactly if the array has one
axis and holds the very integers of the list, in order, whatever their size. The exception are lists in
which words with and without a sign meet: only doubles hold these together, and rounding them lets wrong
integers pass and right ones fail.
-/

namespace Knot

open Run

namespace Grid

/-! Grids of one shape meet element by element. -/

theorem size_cons (n : Nat) (shape : List Nat) : size (n :: shape) = size shape * n := by
  have scaled (m : Nat) : shape.foldl (· * ·) m = m * shape.foldl (· * ·) 1 := by
    induction shape generalizing m with
    | nil => simp
    | cons k shape ih =>
        rw [List.foldl_cons, List.foldl_cons, ih (m * k), ih (1 * k), Nat.one_mul, Nat.mul_assoc]
  rw [size, List.foldl_cons, scaled, Nat.one_mul, Nat.mul_comm]
  rfl

theorem length_of_mem_rows {α : Type} {width count : Nat} {data row : List α}
    (full : data.length = width * count) (member : row ∈ rows width count data) : row.length = width := by
  induction count generalizing data with
  | zero => cases member
  | succ count ih =>
      rw [Nat.mul_succ] at full
      rcases List.mem_cons.mp member with rfl | member
      · rw [List.length_take]
        omega
      · exact ih (by rw [List.length_drop]; omega) member

theorem spread_self {α : Type} (shape : List Nat) {data : List α} (full : data.length = size shape) :
    spread shape shape data = data := by
  induction shape generalizing data with
  | nil => rfl
  | cons n shape ih =>
      rw [size_cons] at full
      have each : (rows (size shape) n data).map (spread shape shape) = rows (size shape) n data := by
        conv => rhs; rw [← List.map_id (rows (size shape) n data)]
        exact List.map_congr_left fun row member => ih (length_of_mem_rows full member)
      rw [spread, if_pos rfl, each, rows_flatten _ _ _ full]

theorem stretched?_self (shape : List Nat) : stretched? shape shape = some shape := by
  have go (shape : List Nat) : stretched?.go shape shape = some shape := by
    induction shape with
    | nil => rfl
    | cons n shape ih => rw [stretched?.go, if_pos (.inl rfl), ih]; rfl
  rw [stretched?, go, Option.map_some, List.reverse_reverse]

theorem meeting_self {a b : Grid} (same : a.shape = b.shape) (left : a.data.length = size a.shape)
    (right : b.data.length = size b.shape) : meeting a b = .ok (a.shape, a.data.zip b.data) := by
  have stretch_self {data : List Value} (full : data.length = size a.shape) :
      stretch a.shape a.shape data = data := by
    rw [stretch, Nat.sub_self, List.replicate_zero, List.nil_append, spread_self _ full]
  rw [← same] at right
  rw [meeting, ← same, stretched?_self]
  simp only [stretch_self left, stretch_self right]

/-! Grids of integers. -/

theorem forall₂_single (ints : List Int) :
    List.Forall₂ (IsNest []) (ints.map ([·])) (ints.map .int) := by
  induction ints with
  | nil => exact .nil
  | cons i ints ih => exact .cons ⟨i, rfl, rfl⟩ ih

theorem equal_int (i j : Int) : Value.equal (.int i) (.int j) = .ok (i == j) := rfl

theorem elementEqual_int {left right : DType} (first : isExact left = true) (second : isExact right = true)
    (i j : Int) : elementEqual Value.equal left right (.int i) (.int j) = .ok (i == j) := by
  cases left with
  | int64 | uint64 | object =>
      cases right with
      | int64 | uint64 | object => exact equal_int i j
      | _ => cases second
  | _ => cases first

theorem mapM_elementEqual {left right : DType} {as es : List Int}
    (first : isExact left = true ∨ as = []) (second : isExact right = true ∨ es = []) :
    ((as.map Value.int).zip (es.map Value.int)).mapM
        (fun pair => elementEqual Value.equal left right pair.1 pair.2) =
      .ok ((as.zip es).map fun pair => pair.1 == pair.2) := by
  induction as generalizing es with
  | nil => rfl
  | cons i as ih =>
      cases es with
      | nil => rfl
      | cons j es =>
          have holds := first.resolve_right (List.cons_ne_nil i as)
          have holds' := second.resolve_right (List.cons_ne_nil j es)
          have met := elementEqual_int holds holds' i j
          rw [List.map_cons, List.map_cons, List.zip_cons_cons, List.mapM_cons, ih (.inl holds) (.inl holds')]
          dsimp only
          rw [met]
          rfl

theorem all_zip_beq {as es : List Int} (length : as.length = es.length) :
    ((as.zip es).map fun pair => pair.1 == pair.2).all id = decide (as = es) := by
  induction as generalizing es with
  | nil =>
      obtain rfl := List.eq_nil_of_length_eq_zero length.symm
      rfl
  | cons i as ih =>
      cases es with
      | nil => cases length
      | cons j es =>
          rw [List.zip_cons_cons, List.map_cons, List.all_cons, ih (Nat.succ.inj length)]
          simp only [List.cons.injEq, Bool.decide_and, id_eq]
          rfl

/-- Grids that hold integers as they are are equal if they have one shape and the same integers. -/
theorem equal_ints {left right : DType} {shape shape' : List Nat} {as es : List Int}
    (first : isExact left = true ∨ as = []) (second : isExact right = true ∨ es = [])
    (full : as.length = size shape) (full' : es.length = size shape') :
    Grid.equal Value.equal ⟨left, shape, as.map .int⟩ ⟨right, shape', es.map .int⟩ =
      .ok (decide (shape = shape' ∧ as = es)) := by
  unfold Grid.equal
  by_cases same : shape = shape'
  · subst same
    have met : meeting ⟨left, shape, as.map .int⟩ ⟨right, shape, es.map .int⟩ =
        .ok (shape, (as.map .int).zip (es.map .int)) :=
      meeting_self rfl (by simpa using full) (by simpa using full')
    rw [if_pos rfl, equalities, met]
    change ((((as.map Value.int).zip (es.map Value.int)).mapM fun pair =>
      elementEqual Value.equal left right pair.1 pair.2) >>= fun truths => pure (shape, truths)) >>=
        (fun outcome => pure (outcome.2.all id)) = _
    rw [mapM_elementEqual first second]
    change Except.ok _ = _
    rw [all_zip_beq (full.trans full'.symm)]
    simp only [true_and]
  · rw [if_neg same]
    simp [same]

end Grid

/-- An integer that is not too long to be written. -/
def Written (i : Int) : Prop := ∃ text, integerText i = .ok text

namespace Store

variable {s : Store}

/-- A value that is an array of integers as they are. -/
def ArrayOf (s : Store) (shape : List Nat) (ints : List Int) (v : Value) : Prop :=
  ints.length = Grid.size shape ∧ ∃ mark dtype, Grid.isExact dtype = true ∧
    s.head v = .array mark dtype shape (ints.map .int)

/-- A value that is a list of integers. -/
def ListOf (s : Store) (ints : List Int) (v : Value) : Prop :=
  ∃ mark, s.head v = .list mark (ints.map .int)

/-! Integers in a list or an array show as they are held. -/

theorem withContentsAll_ints (c : Contents) (around : List Nat) (ints : List Int) :
    Value.withContentsAll c around (ints.map .int) = ints.map .int := by
  induction ints with
  | nil => rfl
  | cons i ints ih =>
      have atom : (Value.int i).withContents c around = .int i := rfl
      rw [List.map_cons, Value.withContentsAll, ih, atom]

theorem held_ints (code : (Value → Value) → Value → Value) {hops mark : Nat} (around : List Nat)
    (enough : s.contents.length ≤ hops) {items : List Value} {ints : List Int}
    (held : s.items mark items = ints.map .int) :
    (((s.contentsNow code hops).items? around mark).getD
      (Value.withContentsAll (s.contentsNow code hops) around items)) = ints.map .int := by
  unfold Store.items at held
  cases hops with
  | zero =>
      have none : s.contents = [] := List.eq_nil_of_length_eq_zero (Nat.le_zero.mp enough)
      rw [none] at held
      obtain rfl : items = ints.map .int := held
      exact withContentsAll_ints _ _ _
  | succ hops =>
      simp only [contentsNow]
      cases found : s.contents.lookup mark with
      | none =>
          rw [found] at held
          obtain rfl : items = ints.map .int := held
          exact withContentsAll_ints _ _ _
      | some items' =>
          rw [found] at held
          obtain rfl : items' = ints.map .int := held
          rw [Option.map_some, Option.getD_some, List.map_map]
          exact List.map_congr_left fun i _ => rfl

theorem withContents_array (code : (Value → Value) → Value → Value) {hops mark : Nat} {dtype : DType}
    {shape : List Nat} (enough : s.contents.length ≤ hops) {v : Value} {ints : List Int}
    (held : s.head v = .array mark dtype shape (ints.map .int)) :
    v.withContents (s.contentsNow code hops) [] = .array mark dtype shape (ints.map .int) := by
  cases v with
  | array m d sh data =>
      simp only [head, Value.array.injEq] at held
      obtain ⟨rfl, rfl, rfl, held⟩ := held
      have shown := held_ints code [] enough held
      rw [Value.withContents]
      cases found : (s.contentsNow code hops).items? [] m <;> rw [found] at shown <;>
        exact congrArg _ shown
  | _ => simp [head] at held

theorem withContents_list (code : (Value → Value) → Value → Value) {hops mark : Nat}
    (enough : s.contents.length ≤ hops) {v : Value} {ints : List Int}
    (held : s.head v = .list mark (ints.map .int)) :
    v.withContents (s.contentsNow code hops) [] = .list mark (ints.map .int) := by
  cases v with
  | list m items =>
      simp only [head, Value.list.injEq] at held
      obtain ⟨rfl, held⟩ := held
      have shown := held_ints code [m] enough held
      have outside : lies [] m = false := by rw [lies, List.contains_nil, Bool.and_false]
      rw [Value.withContents, outside, if_neg Bool.false_ne_true]
      cases found : (s.contentsNow code hops).items? [m] m <;> rw [found] at shown <;>
        exact congrArg _ shown
  | _ => simp [head] at held

theorem now_array {mark : Nat} {dtype : DType} {shape : List Nat} {v : Value} {ints : List Int}
    (held : s.head v = .array mark dtype shape (ints.map .int)) :
    s.now v = .array mark dtype shape (ints.map .int) :=
  withContents_array _ (by omega) held

theorem now_list {mark : Nat} {v : Value} {ints : List Int}
    (held : s.head v = .list mark (ints.map .int)) : s.now v = .list mark (ints.map .int) :=
  withContents_list _ (by omega) held

theorem showAll_ints (frames : Nat → Frame) {ints : List Int} (written : ∀ i ∈ ints, Written i) :
    ∃ texts, Value.showAll frames (ints.map .int) = .ok texts := by
  induction ints with
  | nil => exact ⟨[], by rw [List.map_nil, Value.showAll]⟩
  | cons i ints ih =>
      obtain ⟨text, first⟩ := written i (.head _)
      obtain ⟨texts, rest⟩ := ih fun j member => written j (.tail _ member)
      rw [List.map_cons, Value.showAll, rest, Book.showWith_int, first]
      exact ⟨text :: texts, rfl⟩

variable {shape : List Nat} {as es : List Int} {a e : Value}

theorem ArrayOf.shown (array : s.ArrayOf shape as a)
    (written : ∀ i ∈ as, Written i) :
    ∃ text, (s.view a).showWith s.frame = .ok text := by
  obtain ⟨-, mark, dtype, -, held⟩ := array
  obtain ⟨texts, each⟩ := showAll_ints s.frame written
  rw [view, withContents_array _ (by omega) held, Value.showWith.eq_def]
  dsimp only
  rw [each]
  exact ⟨_, rfl⟩

theorem ListOf.shown (list : s.ListOf es e)
    (written : ∀ i ∈ es, Written i) :
    ∃ text, (s.view e).showWith s.frame = .ok text := by
  obtain ⟨mark, held⟩ := list
  obtain ⟨texts, each⟩ := showAll_ints s.frame written
  rw [view, withContents_list _ (by omega) held, Value.showWith.eq_def]
  dsimp only
  rw [each]
  exact ⟨_, rfl⟩

/-- An array and a list of integers that are not mixed are equal exactly if they hold the same. -/
theorem equals_ints (array : s.ArrayOf shape as a) (list : s.ListOf es e) (unmixed : ¬Grid.Mixed es) :
    s.equals a e = .ok (decide (shape = [es.length] ∧ as = es)) ∧
      s.equals e a = .ok (decide (shape = [es.length] ∧ as = es)) := by
  obtain ⟨full, mark, dtype, holds, held⟩ := array
  obtain ⟨mark', held'⟩ := list
  have nest : Grid.IsNest [es.length] es (.list mark' (es.map .int)) :=
    ⟨mark', es.map .int, es.map ([·]), rfl, List.length_map _, fun _ => rfl,
      (List.flatMap_singleton' es).symm, Grid.forall₂_single es⟩
  obtain ⟨dtype', holds', grid⟩ := Grid.ofValue_nest nest unmixed
  have full' : es.length = Grid.size [es.length] := by simp [Grid.size]
  have given : Grid.ofValue (.array mark dtype shape (as.map .int)) = .ok ⟨dtype, shape, as.map .int⟩ := rfl
  unfold equals
  rw [now_array held, now_list held']
  constructor
  · change (Grid.ofValue _ >>= fun x => Grid.ofValue _ >>= fun y => Grid.equal Value.equal x y) = _
    rw [given, grid]
    exact Grid.equal_ints (.inl holds) holds' full full'
  · change (Grid.ofValue _ >>= fun x => Grid.ofValue _ >>= fun y => Grid.equal Value.equal x y) = _
    rw [given, grid]
    refine (Grid.equal_ints holds' (.inl holds) full' full).trans ?_
    simp only [eq_comm]

end Store

/-! Checks without a label. -/

/-- What the failure of a check without a label says, or why it says nothing. -/
def Store.bareText (s : Store) (a e : Value) : Except Fault String := do
  let expected ← (s.view e).showWith s.frame
  let actual ← (s.view a).showWith s.frame
  return "" ++ "expected " ++ expected ++ ", got " ++ actual

theorem unlabelled_mismatch (s : Store) (a e : Value) :
    mismatch a e .none s = ((Fault.mismatch a e .none) <$> Run.ofExcept (s.bareText a e)) s := by
  have plain : now .none s = .ok .none s := by
    change EStateM.Result.ok (s.now .none) s = _
    rw [s.now_of_atom fun _ => rfl]
  have first := shown_eq s e
  have second := shown_eq s a
  unfold mismatch Store.bareText
  rw [bind_of_ok plain, bind_of_ok (show Run.ofExcept (Value.truth .none) s = .ok false s from rfl)]
  dsimp only
  rw [if_neg Bool.false_ne_true, bind_of_ok (show (pure "" : Run String) s = .ok "" s from rfl)]
  cases wanted : (s.view e).showWith s.frame with
  | error f =>
      rw [wanted] at first
      rw [bind_of_error first]
      rfl
  | ok expected =>
      rw [wanted] at first
      rw [bind_of_ok first]
      cases given : (s.view a).showWith s.frame with
      | error f =>
          rw [given] at second
          rw [bind_of_error second]
          rfl
      | ok actual =>
          rw [given] at second
          rw [bind_of_ok second]
          rfl

/-- A check that passes if a condition holds, and else fails as checks do, unless one of some integers
cannot be written in what it is to say. It changes nothing. -/
def Machine.Decides (k : Machine) (actual expected : Value) (s : Store) (same : Prop) (ints : List Int) :
    Prop :=
  (same → Builtin.call k .assertEq [actual, expected] [] s = .ok actual s) ∧
    (¬same → ∃ f, Builtin.call k .assertEq [actual, expected] [] s = .error (.fault f) s ∧
      (f.kind = "AssertionFailure" ∨ ∃ i ∈ ints, ¬Written i))

theorem passes_of_equals (k : Machine) {actual expected : Value} {s : Store}
    (same : s.equals actual expected = .ok true) :
    Builtin.call k .assertEq [actual, expected] [] s = .ok actual s := by
  have verdict := isEqual_eq s actual expected
  rw [same] at verdict
  change assertEq actual expected .none s = _
  exact bind_of_ok verdict

theorem decides_of_equals (k : Machine) {actual expected : Value} {s : Store} {same : Prop}
    [Decidable same] {ints : List Int} (compared : s.equals actual expected = .ok (decide same))
    (given : (∀ i ∈ ints, Written i) → ∃ text, (s.view actual).showWith s.frame = .ok text)
    (wanted : (∀ i ∈ ints, Written i) → ∃ text, (s.view expected).showWith s.frame = .ok text) :
    k.Decides actual expected s same ints := by
  constructor
  · intro holds
    rw [decide_eq_true holds] at compared
    exact passes_of_equals k compared
  · intro differs
    have verdict := isEqual_eq s actual expected
    rw [compared, decide_eq_false differs] at verdict
    have fails : Builtin.call k .assertEq [actual, expected] [] s =
        (mismatch actual expected .none >>= Run.fault) s := bind_of_ok verdict
    rw [fails]
    have worded := unlabelled_mismatch s actual expected
    cases said : s.bareText actual expected with
    | ok text =>
        rw [said] at worded
        exact ⟨_, bind_of_ok worded, .inl rfl⟩
    | error f =>
        rw [said] at worded
        refine ⟨f, bind_of_error worded, .inr ?_⟩
        -- Were every integer written, both values would be.
        by_contra none
        push Not at none
        obtain ⟨text, shown⟩ := given none
        obtain ⟨text', shown'⟩ := wanted none
        rw [Store.bareText, shown, shown'] at said
        cases said

/-- An array of integers and a list of integers that are not mixed pass a check, in either order, exactly
if the array has one axis and holds the very integers of the list. -/
theorem assertEq_decides_integers (k : Machine) {s : Store} {a e : Value} {shape : List Nat}
    {as es : List Int} (array : s.ArrayOf shape as a) (list : s.ListOf es e) (unmixed : ¬Grid.Mixed es) :
    k.Decides a e s (shape = [es.length] ∧ as = es) (as ++ es) ∧
      k.Decides e a s (shape = [es.length] ∧ as = es) (as ++ es) := by
  have equals := Store.equals_ints array list unmixed
  have given (written : ∀ i ∈ as ++ es, Written i) :=
    array.shown fun i member => written i (List.mem_append_left _ member)
  have wanted (written : ∀ i ∈ as ++ es, Written i) :=
    list.shown fun i member => written i (List.mem_append_right _ member)
  exact ⟨decides_of_equals k equals.1 given wanted, decides_of_equals k equals.2 wanted given⟩

/-- Integers that only words without a sign hold, in an array. -/
def wordsArray : Value := .array 16 .uint64 [2] [.int 9223372036854775809, .int 18446744073709551615]

/-- One of these integers and one that is too large for a word, in a list. -/
def largeList : Value := .list 17 [.int 9223372036854775809, .int 18446744073709551616]

theorem assertEq_decides_integers_large :
    (Machine.ofFuel 3).Decides wordsArray largeList Session.start
      ([2] = [2] ∧ ([9223372036854775809, 18446744073709551615] : List Int) =
        [9223372036854775809, 18446744073709551616])
      [9223372036854775809, 18446744073709551615, 9223372036854775809, 18446744073709551616] := by
  have unmixed : ¬Grid.Mixed [9223372036854775809, 18446744073709551616] := by
    rintro ⟨words, -⟩
    have large := words 18446744073709551616 (by decide)
    exact absurd large (by decide)
  exact (assertEq_decides_integers (.ofFuel 3) (a := wordsArray) (e := largeList)
    ⟨rfl, 16, .uint64, rfl, rfl⟩ ⟨17, rfl⟩ unmixed).1

/-- An array of mixed integers as they are. -/
def mixedArray (dtype : DType) : Value := .array 16 dtype [2] [.int 9223372036854775809, .int 1]

/-- A list of mixed integers. -/
def mixedList (first : Int) : Value := .list 17 [.int first, .int 1]

/-- A mixed list is rounded before it is compared: the right integers fail, and wrong ones pass. -/
theorem mixed_list_compares_rounded :
    (∃ f, Builtin.call (.ofFuel 3) .assertEq [mixedArray .object, mixedList 9223372036854775809] []
      Session.start = .error (.fault f) Session.start ∧ f.kind = "AssertionFailure") ∧
    Builtin.call (.ofFuel 3) .assertEq [mixedArray .uint64, mixedList 9223372036854775808] []
      Session.start = .ok (mixedArray .uint64) Session.start := by
  have right : Session.start.equals (mixedArray .object) (mixedList 9223372036854775809) =
      .ok (decide False) := by rfl
  have wrong : Session.start.equals (mixedArray .uint64) (mixedList 9223372036854775808) =
      .ok true := by rfl
  have written : ∀ i ∈ ([9223372036854775809, 1] : List Int), Written i := by
    intro i member
    have short : i.natAbs < Nat.pow 10 Text.digitLimit := by
      rcases List.mem_pair.mp member with rfl | rfl <;> decide +kernel
    exact ⟨_, Book.integerText_of_short short⟩
  have array : Session.start.ArrayOf [2] [9223372036854775809, 1] (mixedArray .object) :=
    ⟨rfl, 16, .object, rfl, rfl⟩
  have list : Session.start.ListOf [9223372036854775809, 1] (mixedList 9223372036854775809) := ⟨17, rfl⟩
  constructor
  · obtain ⟨f, fails, kind⟩ := (decides_of_equals (.ofFuel 3) right (fun _ => array.shown written)
      fun _ => list.shown written).2 id
    exact ⟨f, fails, kind.resolve_right fun ⟨i, member, long⟩ => long (written i member)⟩
  · exact passes_of_equals (.ofFuel 3) wrong

end Knot
