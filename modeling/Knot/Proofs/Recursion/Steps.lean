import Knot.Proofs.Recursion.Numbers

/-!
One step of a recursion over numbers. Whatever stands in for the name that a body cannot use, the body of the
factorial goes on to the predecessor of its number and multiplies, and that of the Fibonacci numbers goes on
to both and adds; a function that does so at every call follows the recursion.
-/

namespace Knot

open Run Store Term Prelude

section

variable {m : Manner} {k : Machine} {scope : Scope} {number recur : Term} {s t : Store} {v : Value}
  {x : Number} {P : Value → Store → Prop}

/-- What a term reads is one value but for its mark, wherever it is read. -/
def Reads (m : Manner) (k : Machine) (scope : Scope) (number : Term) (s : Store) (v : Value) : Prop :=
  ∀ t, m.keeps s t → Gives (number.eval k scope) t fun w _ => w.unmarked = v.unmarked

theorem Reads.later (reads : Reads m k scope number s v) (keeps : m.keeps s t) : Reads m k scope number t v :=
  fun u keeps' => reads u (m.trans keeps keeps')

theorem Reads.var {name : String} (bound : scope.lookup name = some v) :
    Reads m k scope (.var name) s v :=
  fun _ _ => (var_yields bound).mono fun _ _ _ same => by rw [same]

theorem reads_less (reads : Reads m k scope number s v) (is : v.number? = some x) (bound : Int) :
    Yields ((less number (num bound)).eval k scope) s (.bool (x.less (.int bound))) := by
  rw [less, eval]
  refine (reads s (m.quiet (.refl s))).bind fun w t quiet same => ?_
  refine (num_yields bound).bind ?_
  rintro _ u later rfl
  exact binary_less_number ((Value.number?_congr same).trans is) rfl u

theorem reads_minus {y : Number} (reads : Reads m k scope number s v) (is : v.number? = some x) {i : Int}
    (before : x.sub (.int i) = .ok y) :
    Gives ((minus number (num i)).eval k scope) s fun w _ => w.unmarked = y.value := by
  rw [minus, eval]
  refine (reads s (m.quiet (.refl s))).bind fun w t quiet same => ?_
  refine (num_yields i).bind ?_
  rintro _ u later rfl
  exact binary_number ((Value.number?_congr same).trans is) rfl u .sub before (by decide)

/-- A call of what stands in for the recursion, at a number that is less. -/
theorem recur_attains {i : Int} {y : Number} {F : Value → Store → Prop}
    (reads : Reads m k scope number s v) (is : v.number? = some x) (before : x.sub (.int i) = .ok y)
    (callee : Attains m (recur.eval k scope) s F)
    (call : ∀ g t w u, m.keeps s t → F g t → Quiet t u → w.unmarked = y.value →
      Attains m (k.call g [w] []) u P) :
    Attains m ((app recur [minus number (num i)]).eval k scope) s P := by
  rw [app, eval]
  refine callee.bind fun g t keeps holds => ?_
  have args : Gives (evalAll k [minus number (num i)] scope) t fun ws _ => ∃ w, ws = [w] ∧ w.unmarked = y.value := by
    rw [evalAll_one]
    exact (reads_minus (reads.later keeps) is before).bind fun w u _ same => .pure ⟨w, rfl, same⟩
  refine args.next ?_
  rintro ws u quiet ⟨w, rfl, same⟩
  exact call g t w u keeps holds quiet same

theorem factorialStep_attains (reads : Reads m k scope number s v) (is : v.number? = some x)
    (below : x.less (.int 1) = true → ∀ t, Quiet s t → P (.int 1) t)
    (above : x.less (.int 1) = false → ∀ y, x.sub (.int 1) = .ok y → ∀ t, Quiet s t →
      Attains m ((app recur [minus number (num 1)]).eval k scope) t fun w u =>
        ∃ r p, w.number? = some r ∧ x.mul r = .ok p ∧ ∀ q u', Quiet u u' → q.unmarked = p.value → P q u') :
    Attains m ((factorialStep recur number).eval k scope) s P := by
  refine ite_attains (reads_less reads is 1) (fun less t quiet => ?_) fun ge t quiet => ?_
  · exact ((num_yields 1).mono fun w u later same => same ▸ below less u (quiet.trans later)).attains
  · obtain ⟨y, before, -⟩ := x.sub_one
    rw [times, eval]
    refine (reads t (m.quiet quiet)).next fun w u later same => ?_
    refine (above ge y before u (quiet.trans later)).bind fun w' u' _ held => ?_
    obtain ⟨r, p, result, product, holds⟩ := held
    refine ((binary_number ((Value.number?_congr same).trans is) result u' .mul product (by decide)).mono ?_).attains
    exact fun q u'' quiet' same' => holds q u'' quiet' same'

theorem fibonacciStep_attains {A : Value → Store → Prop} (reads : Reads m k scope number s v)
    (is : v.number? = some x)
    (below : x.less (.int 2) = true → ∀ w t, Quiet s t → w.unmarked = v.unmarked → P w t)
    (first : x.less (.int 2) = false → ∀ y, x.sub (.int 1) = .ok y → ∀ t, Quiet s t →
      Attains m ((app recur [minus number (num 1)]).eval k scope) t A)
    (second : x.less (.int 2) = false → ∀ y, x.sub (.int 2) = .ok y → ∀ w t, m.keeps s t → A w t →
      Attains m ((app recur [minus number (num 2)]).eval k scope) t fun w' u =>
        ∃ r r' p, w.number? = some r ∧ w'.number? = some r' ∧ r.add r' = .ok p ∧
          ∀ q u', Quiet u u' → q.unmarked = p.value → P q u') :
    Attains m ((fibonacciStep recur number).eval k scope) s P := by
  refine ite_attains (reads_less reads is 2) (fun less t quiet => ?_) fun ge t quiet => ?_
  · exact ((reads t (m.quiet quiet)).mono fun w u later same => below less w u (quiet.trans later) same).attains
  · obtain ⟨y, before, -⟩ := x.sub_one
    obtain ⟨y', before', -⟩ := x.sub_two
    refine binary_attains (first ge y before t quiet)
      (fun w u keeps held => second ge y' before' w u (m.trans (m.quiet quiet) keeps) held) ?_
    intro w u w' u' _ _ _ held
    obtain ⟨r, r', p, result, result', sum, holds⟩ := held
    exact ((binary_number result result' u' .add sum (by decide)).mono fun q u'' later same => holds q u'' later same).attains

end

/-! Recursions, and functions that follow them. -/

/-- A recursion over numbers: what a body does at one number, with what stands in for the recursion, and what
the values are, with how many calls lie in each other where they are computed. -/
structure Recurrence where
  step : Term → Term → Term
  value : Value → Nat → Value → Prop
  congr : ∀ {v v' d z}, v.unmarked = v'.unmarked → value v d z → value v' d z
  /-- A body gives the value at its number if what stands in for the recursion does so at lesser ones. -/
  goes : ∀ {stops : Stop → Prop} {k scope number recur s v x d},
    Reads (.silent stops) k scope number s v → v.number? = some x →
    ((Manner.silent stops).Open ∨ ∃ z, value v d z) →
    (∀ i y d', x.sub (.int i) = .ok y → ((Manner.silent stops).Open ∨ d' < d) →
      ((Manner.silent stops).Open ∨ ∃ z, value y.value d' z) → ∀ t, Quiet s t →
      Attains (.silent stops) ((app recur [minus number (num i)]).eval k scope) t
        fun w _ => ∃ d z, value y.value d z ∧ w.unmarked = z) →
    Attains (.silent stops) ((step recur number).eval k scope) s fun w _ => ∃ d z, value v d z ∧ w.unmarked = z

namespace Recurrence

/-- What is given is the value, but for its mark. -/
def Answers (R : Recurrence) (v w : Value) : Prop := ∃ d z, R.value v d z ∧ w.unmarked = z

theorem Answers.congr {R : Recurrence} {v v' w : Value} (same : v.unmarked = v'.unmarked)
    (answers : R.Answers v w) : R.Answers v' w := by
  obtain ⟨d, z, is, shows⟩ := answers
  exact ⟨d, z, R.congr same is, shows⟩

/-- There is room for the calls that lie in each other, or the ceiling may stop the run. -/
def Tends (R : Recurrence) (m : Manner) (levels : Nat → Nat) (n : Nat) (s : Store) (v : Value) : Prop :=
  ∃ d, m.Room (levels d) n s ∧ (m.Open ∨ ∃ z, R.value v d z)

/-- Functions of a family, each in the stores where it belongs to it, give the values on all numbers with
some fuel. -/
def FollowsAt (R : Recurrence) (stops : Stop → Prop) (levels : Nat → Nat) (family : Store → Value → Prop)
    (n : Nat) : Prop :=
  ∀ (s : Store) (f v : Value) (x : Number), family s f → v.number? = some x →
    R.Tends (.silent stops) levels n s v →
    Attains (.silent stops) ((Machine.ofFuel n).call f [v] []) s fun w _ => R.Answers v w

/-- Functions of a family give the values on all numbers, whatever the fuel is and whatever may stop them. -/
def Follows (R : Recurrence) (levels : Nat → Nat) (family : Store → Value → Prop) : Prop :=
  ∀ (stops : Stop → Prop) (n : Nat), R.FollowsAt stops levels family n

theorem FollowsAt.number {R : Recurrence} {stops : Stop → Prop} {levels : Nat → Nat}
    {family : Store → Value → Prop} {n d : Nat} {s : Store} {f w : Value} {y : Number}
    (follows : R.FollowsAt stops levels family n) (is : family s f) (same : w.unmarked = y.value)
    (room : (Manner.silent stops).Room (levels d) n s)
    (ends : (Manner.silent stops).Open ∨ ∃ z, R.value y.value d z) :
    Attains (.silent stops) ((Machine.ofFuel n).call f [w] []) s fun r _ => R.Answers y.value r := by
  have same' := same.trans y.unmarked_value.symm
  refine (follows s f w y is (Number.number?_of_unmarked same) ⟨d, room, ?_⟩).mono fun r _ _ answers => ?_
  · exact ends.imp id fun ⟨z, is⟩ => ⟨z, R.congr same'.symm is⟩
  · exact answers.congr same'

def factorial : Recurrence where
  step := factorialStep
  value := Factorial
  congr := Factorial.congr
  goes := by
    intro stops k scope number recur s v x d reads is ends recursion
    refine factorialStep_attains reads is (fun below t _ => ?_) fun above y before t quiet => ?_
    · exact ⟨0, _, .base is below, rfl⟩
    · have less : ∃ d', ((Manner.silent stops).Open ∨ d' < d) ∧
          ((Manner.silent stops).Open ∨ ∃ z, Factorial y.value d' z) := by
        rcases ends with free | ⟨z, whole⟩
        · exact ⟨0, .inl free, .inl free⟩
        · obtain ⟨d', w, rfl, inner⟩ := whole.pred is above before
          exact ⟨d', .inr (Nat.lt_succ_self _), .inr ⟨w, inner⟩⟩
      obtain ⟨d', lower, ends'⟩ := less
      refine (recursion 1 y d' before lower ends' t quiet).mono ?_
      rintro w u - ⟨e, z, inner, shows⟩
      obtain ⟨r, p, result, product⟩ := inner.product before
      refine ⟨r, p, ?_, product, fun q u' _ same => ⟨e + 1, p.value, ?_, same⟩⟩
      · rw [← w.number?_unmarked, shows, result]
      · exact .step is above before inner result product

def fibonacci : Recurrence where
  step := fibonacciStep
  value := Fibonacci
  congr := Fibonacci.congr
  goes := by
    intro stops k scope number recur s v x d reads is ends recursion
    have lesser (i : Int) (y : Number) (before : x.sub (.int i) = .ok y)
        (inner : ∀ z, Fibonacci v d z → ∃ d' w, d' < d ∧ Fibonacci y.value d' w) (t : Store) (quiet : Quiet s t) :
        Attains (.silent stops) ((app recur [minus number (num i)]).eval k scope) t
          fun w _ => ∃ d z, Fibonacci y.value d z ∧ w.unmarked = z := by
      rcases ends with free | ⟨z, whole⟩
      · exact recursion i y 0 before (.inl free) (.inl free) t quiet
      · obtain ⟨d', w, lower, is'⟩ := inner z whole
        exact recursion i y d' before (.inr lower) (.inr ⟨w, is'⟩) t quiet
    refine fibonacciStep_attains (A := fun w _ => ∃ y d z, x.sub (.int 1) = .ok y ∧ Fibonacci y.value d z ∧
      w.unmarked = z) reads is (fun below w t _ same => ?_) (fun above y before t quiet => ?_) ?_
    · exact ⟨0, v.unmarked, .base is below, same⟩
    · obtain ⟨y', before', -⟩ := x.sub_two
      refine (lesser 1 y before (fun z whole => ?_) t quiet).mono ?_
      · obtain ⟨d', d'', w, w', rfl, left, -⟩ := whole.pred is above before before'
        exact ⟨d', w, by omega, left⟩
      · rintro w u - ⟨d, z, inner, shows⟩
        exact ⟨y, d, z, before, inner, shows⟩
    · rintro above y' before' w t quiet ⟨y, e, z, before, left, shows⟩
      refine (lesser 2 y' before' (fun z whole => ?_) t quiet).mono ?_
      · obtain ⟨d', d'', w, w', rfl, -, right⟩ := whole.pred is above before before'
        exact ⟨d'', w', by omega, right⟩
      · rintro w' u - ⟨e', z', right, shows'⟩
        obtain ⟨r, r', p, result, result', sum⟩ := left.sum right before before'
        refine ⟨r, r', p, ?_, ?_, sum, fun q u' _ same => ⟨max e e' + 1, p.value, ?_, same⟩⟩
        · rw [← w.number?_unmarked, shows, result]
        · rw [← w'.number?_unmarked, shows', result']
        · exact .step is above before before' left right result result' sum

end Recurrence

end Knot
