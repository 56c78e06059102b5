import Knot.Proofs.Recursion.Manner

/-!
The factorial and the Fibonacci numbers of any number, as the recursions that the examples go through: on
integers they are the mathematical functions, on truth values and doubles whatever the arithmetic of numbers
makes of them. A number whose predecessors never fall below the base has neither.
-/

namespace Knot

open Run Store Term Prelude

namespace Number

theorem less_int (a b : Int) : (int a).less (int b) = decide (a < b) := rfl

/-- A number as a value without a mark. -/
def value : Number → Value := Value.ofNumber 0

theorem value_number? (x : Number) : x.value.number? = some x := by cases x <;> rfl

/-- Whether a number is an integer and not a double. -/
def isInt : Number → Bool
  | int _ => true
  | float _ => false

theorem one_toFloat : (int 1).toFloat = .ok 1.0 := by
  have one : nearestFloat? 1 = some 1.0 := by decide
  rw [toFloat, one]

theorem two_toFloat : (int 2).toFloat = .ok 2.0 := by
  have two : nearestFloat? 2 = some 2.0 := by decide
  rw [toFloat, two]

/-- One can be taken from every number. -/
theorem sub_one (x : Number) : ∃ y, x.sub (.int 1) = .ok y ∧ y.isInt = x.isInt := by
  cases x with
  | int i => exact ⟨_, rfl, rfl⟩
  | float x =>
      refine ⟨.float (x - 1.0), ?_, rfl⟩
      simp only [sub, lift, one_toFloat]
      rfl

theorem sub_two (x : Number) : ∃ y, x.sub (.int 2) = .ok y ∧ y.isInt = x.isInt := by
  cases x with
  | int i => exact ⟨_, rfl, rfl⟩
  | float x =>
      refine ⟨.float (x - 2.0), ?_, rfl⟩
      simp only [sub, lift, two_toFloat]
      rfl

theorem mul_one (x : Number) : ∃ z, x.mul (.int 1) = .ok z ∧ z.isInt = x.isInt := by
  cases x with
  | int i => exact ⟨_, rfl, rfl⟩
  | float x =>
      refine ⟨.float (x * 1.0), ?_, rfl⟩
      simp only [mul, lift, one_toFloat]
      rfl

theorem mul_alike {x y : Number} (alike : y.isInt = x.isInt) : ∃ z, x.mul y = .ok z ∧ z.isInt = x.isInt := by
  cases x <;> cases y <;> cases alike
  · exact ⟨_, rfl, rfl⟩
  · exact ⟨_, rfl, rfl⟩

theorem add_alike {x y : Number} (alike : y.isInt = x.isInt) : ∃ z, x.add y = .ok z ∧ z.isInt = x.isInt := by
  cases x <;> cases y <;> cases alike
  · exact ⟨_, rfl, rfl⟩
  · exact ⟨_, rfl, rfl⟩

end Number

namespace Value

/-- A value without the mark that a double has. -/
def unmarked : Value → Value
  | float _ x => float 0 x
  | v => v

theorem number?_unmarked (v : Value) : v.unmarked.number? = v.number? := by cases v <;> rfl

theorem number?_congr {v w : Value} (same : v.unmarked = w.unmarked) : v.number? = w.number? := by
  rw [← v.number?_unmarked, same, w.number?_unmarked]

theorem eq_int_of_unmarked {v : Value} {i : Int} (same : v.unmarked = .int i) : v = .int i := by
  cases v with
  | float mark x => cases same
  | _ => exact same

theorem unmarked_ofNumber (mark : Nat) (x : Number) : (ofNumber mark x).unmarked = x.value := by
  cases x <;> rfl

end Value

theorem Number.unmarked_value (x : Number) : x.value.unmarked = x.value := by cases x <;> rfl

theorem Number.number?_of_unmarked {v : Value} {x : Number} (same : v.unmarked = x.value) : v.number? = some x := by
  rw [← v.number?_unmarked, same, x.value_number?]

namespace Run

variable {v w : Value} {x y z : Number} (left : v.number? = some x) (right : w.number? = some y) (s : Store)
include left right

theorem binary_less_number : Yields (binary .less v w) s (.bool (x.less y)) := by
  have computed : binary .less v w s = .ok (.bool (x.less y)) { s with nextMark := s.nextMark + 1 } := by
    cases v <;> cases w <;> cases left <;> cases right <;> rfl
  exact .of_run computed (Quiet.told s 1 s.journal s.deeds) rfl

/-- An arithmetic operator on two numbers, which has a result. -/
theorem binary_number (op : BinaryOp) (result : (match op with
      | .add => x.add y
      | .mul => x.mul y
      | _ => x.sub y) = .ok z) (arithmetic : op = .add ∨ op = .sub ∨ op = .mul) :
    Gives (binary op v w) s fun r _ => r.unmarked = z.value := by
  have computed : binary op v w s = .ok (Value.ofNumber s.nextMark z) { s with nextMark := s.nextMark + 1 } := by
    have mapped (r : Except Fault Number) (is : r = .ok z) :
        (ofExcept (Value.ofNumber s.nextMark <$> r)) { s with nextMark := s.nextMark + 1 } =
          .ok (Value.ofNumber s.nextMark z) { s with nextMark := s.nextMark + 1 } := by
      rw [is]
      rfl
    rcases arithmetic with rfl | rfl | rfl
    all_goals
      rw [← mapped _ result]
      cases v <;> cases w <;> cases left <;> cases right <;> rfl
  exact .of_run computed (Quiet.told s 1 s.journal s.deeds) (Value.unmarked_ofNumber _ _)

end Run

/-! Doubles that are their own predecessors. -/

namespace Binary64

open Float.Model in
theorem packed_of_isNaN {b : BitVec Format.binary64.numBits}
    (nan : (UnpackedFloat.unpack Format.binary64 b).isNaN = true) (valid : Format.binary64.Valid b) :
    b = UnpackedFloat.packedNaN Format.binary64 := by
  unfold UnpackedFloat.unpack at nan
  dsimp only at nan
  by_cases exponent : UnpackedFloat.unpackExponent b = -1#11
  · rw [if_pos exponent] at nan
    by_cases mantissa : UnpackedFloat.unpackMantissa b = 0#52
    · rw [if_pos mantissa] at nan
      cases nan
    · exact valid.eq_packedNaN exponent mantissa
  · rw [if_neg exponent] at nan
    by_cases none : UnpackedFloat.unpackExponent b = 0#11
    · rw [if_pos none] at nan
      by_cases empty : UnpackedFloat.unpackMantissa b = 0#52
      · rw [dif_pos empty] at nan
        cases nan
      · rw [dif_neg empty] at nan
        cases nan
    · rw [if_neg none] at nan
      cases nan

/-- There is one double that is not a number. -/
theorem isNaN_unique {x y : Float} (nan : x.isNaN = true) (nan' : y.isNaN = true) : x = y := by
  obtain ⟨⟨b, valid⟩⟩ := x
  obtain ⟨⟨b', valid'⟩⟩ := y
  have bits : b.toBitVec = b'.toBitVec := (packed_of_isNaN nan valid).trans (packed_of_isNaN nan' valid').symm
  obtain rfl := UInt64.toBitVec_inj.mp bits
  rfl

end Binary64

/-- The positive infinity. -/
def infinity : Float := 1.0 / 0.0

namespace Number

/-- What is not a number, and the positive infinity, are no less than one and stay so when one is taken from
them. -/
theorem fixed_of_nan_or_infinity {x : Float} (endless : x.isNaN = true ∨ x = infinity) :
    (float x).less (int 1) = false ∧ (float x).sub (int 1) = .ok (float x) := by
  have taken : x - 1.0 = x → (float x).sub (int 1) = .ok (float x) := by
    intro same
    simp only [sub, lift, one_toFloat]
    exact congrArg (fun y => Except.ok (float y)) same
  rcases endless with nan | rfl
  · obtain rfl : x = 0.0 / 0.0 := Binary64.isNaN_unique nan (by decide)
    exact ⟨by decide, taken (by decide)⟩
  · exact ⟨by decide, taken (by decide)⟩

end Number

/-! The recursions. -/

/-- The factorial of a value, with how many calls lie in each other where it is computed. -/
inductive Factorial : Value → Nat → Value → Prop
  | base {v : Value} {x : Number} : v.number? = some x → x.less (.int 1) = true → Factorial v 0 (.int 1)
  | step {v w : Value} {x y r z : Number} {d : Nat} : v.number? = some x → x.less (.int 1) = false →
      x.sub (.int 1) = .ok y → Factorial y.value d w → w.number? = some r → x.mul r = .ok z →
      Factorial v (d + 1) z.value

/-- The Fibonacci number of a value, with how many calls lie in each other where it is computed. -/
inductive Fibonacci : Value → Nat → Value → Prop
  | base {v : Value} {x : Number} : v.number? = some x → x.less (.int 2) = true → Fibonacci v 0 v.unmarked
  | step {v w w' : Value} {x y y' r r' z : Number} {d d' : Nat} : v.number? = some x →
      x.less (.int 2) = false → x.sub (.int 1) = .ok y → x.sub (.int 2) = .ok y' →
      Fibonacci y.value d w → Fibonacci y'.value d' w' → w.number? = some r → w'.number? = some r' →
      r.add r' = .ok z → Fibonacci v (max d d' + 1) z.value

namespace Factorial

variable {v v' w z : Value} {x y : Number} {d : Nat}

theorem congr (same : v.unmarked = v'.unmarked) (is : Factorial v d z) : Factorial v' d z := by
  have numbers := Value.number?_congr same
  cases is with
  | base number less => exact .base (numbers ▸ number) less
  | step number less pred inner result product => exact .step (numbers ▸ number) less pred inner result product

/-- Below the base there is nothing to compute. -/
theorem pred (is : Factorial v d z) (number : v.number? = some x) (above : x.less (.int 1) = false)
    (before : x.sub (.int 1) = .ok y) : ∃ d' w, d = d' + 1 ∧ Factorial y.value d' w := by
  cases is with
  | base number' less =>
      rw [number] at number'
      cases number'
      rw [above] at less
      cases less
  | step number' less before' inner result product =>
      rw [number] at number'
      cases number'
      rw [before] at before'
      cases before'
      exact ⟨_, _, rfl, inner⟩

/-- The factorial of a number is a number of its sort or one. -/
theorem sort (is : Factorial v d z) (number : v.number? = some x) :
    z = .int 1 ∨ ∃ r, z.number? = some r ∧ r.isInt = x.isInt := by
  induction is generalizing x with
  | base _ _ => exact .inl rfl
  | @step v w x' y r p d number' above before inner result product ih =>
      obtain rfl : x = x' := Option.some.inj (number.symm.trans number')
      obtain ⟨y', before', sort⟩ := x.sub_one
      rw [before] at before'
      cases before'
      refine .inr ⟨p, p.value_number?, ?_⟩
      rcases ih y.value_number? with rfl | ⟨r', result', sort'⟩
      · cases result
        obtain ⟨p', product', same⟩ := x.mul_one
        rw [product] at product'
        cases product'
        exact same
      · rw [result] at result'
        cases result'
        obtain ⟨p', product', same⟩ := Number.mul_alike (sort'.trans sort)
        rw [product] at product'
        cases product'
        exact same

/-- A number can be multiplied by the factorial of its predecessor. -/
theorem product (is : Factorial y.value d z) (before : x.sub (.int 1) = .ok y) :
    ∃ r p, z.number? = some r ∧ x.mul r = .ok p := by
  obtain ⟨y', before', sort⟩ := x.sub_one
  rw [before] at before'
  cases before'
  rcases is.sort y.value_number? with rfl | ⟨r, result, sort'⟩
  · obtain ⟨p, product, -⟩ := x.mul_one
    exact ⟨_, p, rfl, product⟩
  · obtain ⟨p, product, -⟩ := Number.mul_alike (sort'.trans sort)
    exact ⟨r, p, result, product⟩

/-- The factorial of an integer, which is one below one. -/
theorem ofInt (i : Int) : Factorial (.int i) i.toNat (.int i.toNat.factorial) := by
  induction h : i.toNat generalizing i with
  | zero =>
      refine .base rfl ?_
      rw [Number.less_int, decide_eq_true_iff]
      omega
  | succ n ih =>
      have inner := ih (i - 1) (by omega)
      have above : (Number.int i).less (.int 1) = false := by
        rw [Number.less_int, decide_eq_false_iff_not]
        omega
      have product : Number.mul (.int i) (.int n.factorial) = .ok (.int (n + 1).factorial) := by
        have same : i = ((n + 1 : Nat) : Int) := by omega
        rw [same, Number.mul_int, Nat.factorial_succ, Nat.cast_mul]
      exact .step rfl above rfl inner rfl product

/-- A number that is no less than one and its own predecessor has no factorial. -/
theorem not_of_fixed (number : v.number? = some x) (above : x.less (.int 1) = false)
    (fixed : x.sub (.int 1) = .ok x) : ¬Factorial v d z := by
  induction d generalizing v z with
  | zero =>
      intro is
      obtain ⟨_, _, impossible, -⟩ := is.pred number above fixed
      cases impossible
  | succ d ih =>
      intro is
      obtain ⟨_, _, same, inner⟩ := is.pred number above fixed
      cases same
      exact ih x.value_number? inner

/-- A value has one factorial. -/
theorem unique {d' : Nat} {z' : Value} (is : Factorial v d z) (is' : Factorial v d' z') : d = d' ∧ z = z' := by
  induction is generalizing d' z' with
  | base number less =>
      cases is' with
      | base => exact ⟨rfl, rfl⟩
      | step number' above =>
          rw [number] at number'
          cases number'
          rw [less] at above
          cases above
  | @step v w x y r p d number above before inner result product ih =>
      obtain ⟨d'', w', rfl, -⟩ := is'.pred number above before
      cases is' with
      | step number' above' before' inner' result' product' =>
          rw [number] at number'
          cases number'
          rw [before] at before'
          cases before'
          obtain ⟨rfl, rfl⟩ := ih inner'
          rw [result] at result'
          cases result'
          rw [product] at product'
          cases product'
          exact ⟨rfl, rfl⟩

end Factorial

namespace Fibonacci

variable {v v' w z : Value} {x y y' : Number} {d : Nat}

theorem congr (same : v.unmarked = v'.unmarked) (is : Fibonacci v d z) : Fibonacci v' d z := by
  have numbers := Value.number?_congr same
  cases is with
  | base number less => exact same ▸ .base (numbers ▸ number) less
  | step number above first second left right result result' sum =>
      exact .step (numbers ▸ number) above first second left right result result' sum

/-- Below the base there is nothing to compute. -/
theorem pred (is : Fibonacci v d z) (number : v.number? = some x) (above : x.less (.int 2) = false)
    (first : x.sub (.int 1) = .ok y) (second : x.sub (.int 2) = .ok y') :
    ∃ d' d'' w w', d = max d' d'' + 1 ∧ Fibonacci y.value d' w ∧ Fibonacci y'.value d'' w' := by
  cases is with
  | base number' less =>
      rw [number] at number'
      cases number'
      rw [above] at less
      cases less
  | step number' _ first' second' left right =>
      rw [number] at number'
      cases number'
      rw [first] at first'
      cases first'
      rw [second] at second'
      cases second'
      exact ⟨_, _, _, _, rfl, left, right⟩

/-- The Fibonacci number of a number is a number of its sort. -/
theorem sort (is : Fibonacci v d z) (number : v.number? = some x) :
    ∃ r, z.number? = some r ∧ r.isInt = x.isInt := by
  induction is generalizing x with
  | base _ _ => exact ⟨x, (Value.number?_unmarked _).trans number, rfl⟩
  | @step v w w' x' y y' r r' p d d' number' above first second left right result result' sum ih ih' =>
      obtain rfl : x = x' := Option.some.inj (number.symm.trans number')
      obtain ⟨_, before, sort⟩ := x.sub_one
      rw [first] at before
      cases before
      obtain ⟨_, before', sort'⟩ := x.sub_two
      rw [second] at before'
      cases before'
      obtain ⟨_, is, same⟩ := ih y.value_number?
      rw [result] at is
      cases is
      obtain ⟨_, is', same'⟩ := ih' y'.value_number?
      rw [result'] at is'
      cases is'
      obtain ⟨_, sum', kind⟩ := Number.add_alike ((same'.trans sort').trans (same.trans sort).symm)
      rw [sum] at sum'
      cases sum'
      exact ⟨p, p.value_number?, kind.trans (same.trans sort)⟩

/-- The Fibonacci numbers of the two predecessors can be added. -/
theorem sum {d' : Nat} (left : Fibonacci y.value d w) (right : Fibonacci y'.value d' z)
    (first : x.sub (.int 1) = .ok y) (second : x.sub (.int 2) = .ok y') :
    ∃ r r' p, w.number? = some r ∧ z.number? = some r' ∧ r.add r' = .ok p := by
  obtain ⟨_, before, sort⟩ := x.sub_one
  rw [first] at before
  cases before
  obtain ⟨_, before', sort'⟩ := x.sub_two
  rw [second] at before'
  cases before'
  obtain ⟨r, result, same⟩ := left.sort y.value_number?
  obtain ⟨r', result', same'⟩ := right.sort y'.value_number?
  obtain ⟨p, sum, -⟩ := Number.add_alike ((same'.trans sort').trans (same.trans sort).symm)
  exact ⟨r, r', p, result, result', sum⟩

/-- The Fibonacci number of an integer, which is the integer itself below two. -/
theorem ofInt (i : Int) :
    Fibonacci (.int i) (i.toNat - 1) (.int (if i < 2 then i else Nat.fib i.toNat)) := by
  induction h : i.toNat using Nat.strong_induction_on generalizing i with
  | _ n ih =>
      subst h
      by_cases less : i < 2
      · have depth : i.toNat - 1 = 0 := by omega
        rw [depth, if_pos less]
        exact .base rfl (decide_eq_true less)
      · have above : (Number.int i).less (.int 2) = false := decide_eq_false less
        have first := ih (i - 1).toNat (by omega) (i - 1) rfl
        have second := ih (i - 2).toNat (by omega) (i - 2) rfl
        have sum : Number.add (.int (if i - 1 < 2 then i - 1 else Nat.fib (i - 1).toNat))
            (.int (if i - 2 < 2 then i - 2 else Nat.fib (i - 2).toNat)) = .ok (.int (Nat.fib i.toNat)) := by
          rw [Number.add_int, ofInt_small (i - 1) (by omega), ofInt_small (i - 2) (by omega)]
          obtain ⟨n, rfl⟩ : ∃ n : Nat, i = n + 2 := ⟨(i - 2).toNat, by omega⟩
          have one : ((n : Int) + 2 - 1).toNat = n + 1 := by omega
          have two : ((n : Int) + 2 - 2).toNat = n := by omega
          have all : ((n : Int) + 2).toNat = n + 2 := by omega
          rw [one, two, all, Nat.fib_add_two, Nat.cast_add, Int.add_comm]
        have depth : max ((i - 1).toNat - 1) ((i - 2).toNat - 1) + 1 = i.toNat - 1 := by omega
        rw [if_neg less, ← depth]
        exact .step rfl above rfl rfl first second rfl rfl sum
where
  ofInt_small (i : Int) (positive : 0 ≤ i) : (if i < 2 then i else (Nat.fib i.toNat : Int)) = Nat.fib i.toNat := by
    split
    · obtain rfl | rfl : i = 0 ∨ i = 1 := by omega
      · rfl
      · rfl
    · rfl

/-- A value has one Fibonacci number. -/
theorem unique {d' : Nat} {z' : Value} (is : Fibonacci v d z) (is' : Fibonacci v d' z') : d = d' ∧ z = z' := by
  induction is generalizing d' z' with
  | base number less =>
      cases is' with
      | base => exact ⟨rfl, rfl⟩
      | step number' above =>
          rw [number] at number'
          cases number'
          rw [less] at above
          cases above
  | step number above first second left right result result' sum ih ih' =>
      cases is' with
      | base number' less =>
          rw [number] at number'
          cases number'
          rw [above] at less
          cases less
      | step number₂ above₂ first₂ second₂ left₂ right₂ result₂ result₂' sum₂ =>
          rw [number] at number₂
          cases number₂
          rw [first] at first₂
          cases first₂
          rw [second] at second₂
          cases second₂
          obtain ⟨rfl, rfl⟩ := ih left₂
          obtain ⟨rfl, rfl⟩ := ih' right₂
          rw [result] at result₂
          cases result₂
          rw [result'] at result₂'
          cases result₂'
          rw [sum] at sum₂
          cases sum₂
          exact ⟨rfl, rfl⟩

end Fibonacci

end Knot
