import Knot.Proofs.Grids.Elementwise
import Knot.Proofs.Grids.Integers

/-!
Tabulating a function over integers. The function is called once with each integer, in order, and what
it gives is a grid of the shape that the integers have; the first call that fails is the last one. Lists
in which words with and without a sign meet are the exception: their integers are rounded on the way.
-/

namespace Knot

open Run Grid Machine

/-- A value that holds integers, in a grid of some shape: a nest of integers that are not mixed, or an
array whose elements are integers as they are. -/
def Store.HoldsIntegers (s : Store) (shape : List Nat) (ints : List Int) (v : Value) : Prop :=
  (IsNest shape ints (s.now v) ∧ ¬Mixed ints) ∨
    ∃ mark dtype, isExact dtype = true ∧ s.now v = .array mark dtype shape (ints.map .int)

theorem Store.HoldsIntegers.grid {s : Store} {shape : List Nat} {ints : List Int} {v : Value}
    (held : s.HoldsIntegers shape ints v) :
    ∃ dtype, ofValue (s.now v) = .ok ⟨dtype, shape, ints.map .int⟩ := by
  rcases held with ⟨nest, unmixed⟩ | ⟨mark, dtype, -, same⟩
  · obtain ⟨dtype, -, grid⟩ := ofValue_nest nest unmixed
    exact ⟨dtype, grid⟩
  · exact ⟨dtype, by rw [same]; rfl⟩

namespace Machine

variable (k : Machine) (f : Value)

/-- Calls of a function with some integers, one after the other, that all give something. -/
inductive Tabulates : List Int → Store → List Value → Store → Prop
  | nil (s : Store) : Tabulates [] s [] s
  | cons {n : Int} {ns : List Int} {v : Value} {vs : List Value} {s t u : Store} :
      k.app f [.int n] s = .ok v t → Tabulates ns t vs u → Tabulates (n :: ns) s (v :: vs) u

variable {k f}

/-- Calls that tabulate are steps taken in turn. -/
theorem tabulates_iff_inTurn {ns : List Int} {vs : List Value} {s t : Store} :
    k.Tabulates f ns s vs t ↔ InTurn (fun n => k.app f [.int n]) ns s vs t := by
  constructor
  · intro calls
    induction calls with
    | nil s => exact .nil s
    | cons first _ ih => exact .cons first ih
  · intro steps
    induction steps with
    | nil s => exact .nil s
    | cons first _ ih => exact .cons first ih

end Machine

/-- An integer on its way into a call stays what it is. -/
theorem call_with_integer (k : Machine) (f : Value) (i : Int) :
    (marked (.int i) >>= fun v => do k.app f [.int (← Run.ofExcept (toInteger v))]) =
      k.app f [.int i] := rfl

theorem tabulate_eq (k : Machine) (f ns : Value) {s : Store} {shape : List Nat} {ints : List Int}
    (held : s.HoldsIntegers shape ints ns) :
    Builtin.call k .tabulate [f, ns] [] s =
      (ints.mapM (fun n => k.app f [.int n]) >>= array .object shape) s := by
  obtain ⟨dtype, grid⟩ := held.grid
  have calls : (ints.map Value.int).mapM (fun element => do
      let v ← marked element
      k.app f [.int (← Run.ofExcept (toInteger v))]) = ints.mapM fun n => k.app f [.int n] := by
    rw [List.mapM_map]
    rfl
  change Calculus.mapGrid (fun v => do k.app f [.int (← Run.ofExcept (toInteger v))]) ns s = _
  unfold Calculus.mapGrid
  rw [bind_of_ok (show now ns s = .ok (s.now ns) s from rfl), grid,
    bind_of_ok (show Run.ofExcept (.ok (⟨dtype, shape, ints.map .int⟩ : Grid)) s = .ok _ s from rfl)]
  dsimp only
  rw [calls]

/-- How a function is tabulated over integers in a store: either every call gives something, and an array
of the integers' shape holds what the calls gave, or one call fails, and no call follows it. -/
def Machine.InOrder (k : Machine) (f ns : Value) (s : Store) (shape : List Nat) (ints : List Int) : Prop :=
  (∃ vs t, k.Tabulates f ints s vs t ∧ vs.length = ints.length ∧
    Builtin.call k .tabulate [f, ns] [] s = .ok (.array t.nextMark .object shape vs) (t.skip 1)) ∨
  ∃ done n rest vs t e u, ints = done ++ n :: rest ∧ k.Tabulates f done s vs t ∧
    k.app f [.int n] t = .error e u ∧ Builtin.call k .tabulate [f, ns] [] s = .error e u

/-- A function is called with the very integers that it is tabulated over, each once and in order. -/
theorem tabulate_calls_in_order (k : Machine) (f ns : Value) {s : Store} {shape : List Nat}
    {ints : List Int} (held : s.HoldsIntegers shape ints ns) : k.InOrder f ns s shape ints := by
  have run := tabulate_eq k f ns held
  rcases mapM_bind_cases (fun n => k.app f [.int n]) (array .object shape) ints s with
    ⟨vs, t, steps, made⟩ | ⟨done, n, rest, vs, t, e, u, parts, steps, stops, failed⟩
  · left
    exact ⟨vs, t, tabulates_iff_inTurn.mpr steps, steps.length, run.trans made⟩
  · right
    exact ⟨done, n, rest, vs, t, e, u, parts, tabulates_iff_inTurn.mpr steps, stops, run.trans failed⟩

/-- Two rows of integers, among them words of either sort and one too large for both. -/
def rowsOfIntegers : Value :=
  .list 16 [.list 17 [.int (-1), .int 9223372036854775808], .list 18 [.int 18446744073709551616, .int 0]]

theorem tabulate_calls_in_order_rows :
    (ofFuel 3).InOrder (.builtin .factorial) rowsOfIntegers Session.start [2, 2]
      [-1, 9223372036854775808, 18446744073709551616, 0] := by
  apply tabulate_calls_in_order
  left
  constructor
  · refine ⟨16, _, [[-1, 9223372036854775808], [18446744073709551616, 0]], rfl, rfl, nofun, rfl, ?_⟩
    refine .cons ⟨17, _, [[-1], [9223372036854775808]], rfl, rfl, nofun, rfl, ?_⟩
      (.cons ⟨18, _, [[18446744073709551616], [0]], rfl, rfl, nofun, rfl, ?_⟩ .nil)
    · exact .cons ⟨_, rfl, rfl⟩ (.cons ⟨_, rfl, rfl⟩ .nil)
    · exact .cons ⟨_, rfl, rfl⟩ (.cons ⟨_, rfl, rfl⟩ .nil)
  · rintro ⟨words, -⟩
    have large := words 18446744073709551616 (by decide)
    exact absurd large (by decide)

/-- A function that gives back what it gets, tabulated over two integers that are mixed. -/
def tabulateMixed : Term :=
  .app (.prim .tabulate)
    [.fn ["n"] (.var "n"), .list [.num 9223372036854775809, .num 1]]

/-- A mixed list is rounded on its way: the function gets another integer than the list holds. -/
theorem tabulateMixed_rounds :
    (match tabulateMixed.eval (ofFuel 3) [] Session.start with
      | .ok (.array _ .object [2] [.int a, .int b]) _ => a == 9223372036854775808 && b == 1
      | _ => false) = true := by
  decide +kernel

end Knot
