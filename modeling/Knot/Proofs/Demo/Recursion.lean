import Knot.Demo
import Knot.Proofs.Demo.Quiet
import Mathlib.Data.Nat.Factorial.Basic
import Mathlib.Data.Nat.Fib.Basic

/-!
Recursion that is given to a function from outside. Whatever stands in for the name that a body cannot
use, a body of the factorial computes factorials if that gives them for lesser numbers, and so for the
Fibonacci numbers; this holds of the thunked fixed point, of self-application and of plain recursion.
-/

namespace Knot

open Run Store Term Prelude

namespace Run

/-- A run that ends with one value and is quiet. -/
abbrev Yields {α : Type} (x : Run α) (s : Store) (a : α) : Prop := Gives x s fun b _ => b = a

theorem steady_value {α : Type} (P : α → Prop) : Steady fun a _ => P a := fun _ _ _ holds => holds

end Run

namespace Term

variable {s : Store} {k : Machine} {scope : Scope} {P : Value → Store → Prop}

theorem var_yields {name : String} {v : Value} (bound : scope.lookup name = some v) :
    Yields ((var name).eval k scope) s v := by
  have found : Form.resolve scope name = pure v := by
    unfold Form.resolve
    rw [bound]
  rw [eval_var, found]
  exact .pure rfl

theorem num_yields (i : Int) : Yields ((num i).eval k scope) s (.int i) := .same rfl rfl

theorem prim_yields (b : Builtin) : Yields ((prim b).eval k scope) s (.builtin b) := .same rfl rfl

theorem lam_gives (header : Header) (body : Term) :
    Gives ((lam header body).eval k scope) s fun v _ => ∃ mark, v = .closure mark header body scope :=
  .of_run rfl (Quiet.told s 1 s.journal s.deeds) ⟨_, rfl⟩

/-- A call without arguments. -/
theorem ask_gives {f : Term} {F : Value → Store → Prop} (callee : Gives (f.eval k scope) s F)
    (call : ∀ g t, Quiet s t → F g t → Gives (k.call g [] []) t P) :
    Gives ((app f []).eval k scope) s P := by
  rw [app, eval]
  exact callee.bind fun g t quiet holds => call g t quiet holds

/-- A call with one argument. -/
theorem app_gives {f a : Term} {F A : Value → Store → Prop} (callee : Gives (f.eval k scope) s F)
    (arg : ∀ g t, Quiet s t → F g t → Gives (a.eval k scope) t A)
    (call : ∀ g t v u, Quiet s t → F g t → Quiet t u → A v u → Gives (k.call g [v] []) u P) :
    Gives ((app f [a]).eval k scope) s P := by
  rw [app, eval]
  refine callee.bind fun g t quiet holds => ?_
  have args : Gives (evalAll k [a] scope) t fun vs u => ∃ v, vs = [v] ∧ A v u := by
    rw [evalAll_one]
    exact (arg g t quiet holds).bind fun v u _ held => .pure ⟨v, rfl, held⟩
  refine args.bind fun vs u quiet' held => ?_
  obtain ⟨v, rfl, held⟩ := held
  exact call g t v u quiet holds quiet' held

theorem ite_gives {c a b : Term} {truth : Bool} (condition : Yields (c.eval k scope) s (.bool truth))
    (first : truth = true → ∀ t, Quiet s t → Gives (a.eval k scope) t P)
    (second : truth = false → ∀ t, Quiet s t → Gives (b.eval k scope) t P) :
    Gives ((ite c a b).eval k scope) s P := by
  rw [eval]
  refine condition.bind fun v t quiet holds => ?_
  subst holds
  have decided : Yields (Run.truth (.bool truth)) t truth := by
    cases truth <;> exact .same rfl rfl
  refine decided.bind fun b u quiet' is => ?_
  subst is
  cases b with
  | true => exact first rfl u (quiet.trans quiet')
  | false => exact second rfl u (quiet.trans quiet')

theorem binary_yields {op : BinaryOp} {a b : Term} {x y v : Value}
    (left : Yields (a.eval k scope) s x) (right : ∀ t, Quiet s t → Yields (b.eval k scope) t y)
    (computed : ∀ t, Run.binary op x y t = .ok v { t with nextMark := t.nextMark + 1 }) :
    Yields ((binary op a b).eval k scope) s v := by
  rw [eval]
  refine left.bind fun x t quiet holds => ?_
  subst holds
  refine (right t quiet).bind fun y u _ holds => ?_
  subst holds
  exact .of_run (computed u) (Quiet.told u 1 u.journal u.deeds) rfl

end Term

/-! Steps of the factorial and of the Fibonacci numbers. -/

section

variable {s : Store} {k : Machine} {scope : Scope} {recur number : Term}

/-- A number that is less by something. -/
theorem minus_yields {n : Nat} (less : Nat) (bound : less ≤ n)
    (numbered : Yields (number.eval k scope) s (.int n)) :
    Yields ((minus number (num less)).eval k scope) s (.int (n - less : Nat)) := by
  have same : ((n - less : Nat) : Int) = (n : Int) - (less : Int) := by omega
  rw [same]
  exact binary_yields numbered (fun _ _ => num_yields _) fun _ => rfl

theorem factorialStep_yields (n : Nat)
    (numbered : ∀ t, Quiet s t → Yields (number.eval k scope) t (.int n))
    (recursion : ∀ m, n = m + 1 → ∀ t, Quiet s t →
      Yields ((app recur [minus number (num 1)]).eval k scope) t (.int m.factorial)) :
    Yields ((factorialStep recur number).eval k scope) s (.int n.factorial) := by
  have compared : Yields ((less number (num 1)).eval k scope) s (.bool (decide ((n : Int) < 1))) :=
    binary_yields (numbered s (.refl s)) (fun _ _ => num_yields _) fun _ => rfl
  refine ite_gives compared (fun below t _ => ?_) fun above t quiet => ?_
  · obtain rfl : n = 0 := by
      have below := of_decide_eq_true below
      omega
    exact num_yields 1
  · obtain ⟨m, rfl⟩ : ∃ m, n = m + 1 := by
      have above := of_decide_eq_false above
      exact ⟨n - 1, by omega⟩
    have product : ((m + 1).factorial : Int) = ((m + 1 : Nat) : Int) * (m.factorial : Int) := by
      rw [Nat.factorial_succ, Nat.cast_mul]
    rw [product]
    exact binary_yields (numbered t quiet) (fun u later => recursion m rfl u (quiet.trans later)) fun _ => rfl

theorem fibonacciStep_yields (n : Nat)
    (numbered : ∀ t, Quiet s t → Yields (number.eval k scope) t (.int n))
    (first : ∀ m, n = m + 2 → ∀ t, Quiet s t →
      Yields ((app recur [minus number (num 1)]).eval k scope) t (.int (Nat.fib (m + 1))))
    (second : ∀ m, n = m + 2 → ∀ t, Quiet s t →
      Yields ((app recur [minus number (num 2)]).eval k scope) t (.int (Nat.fib m))) :
    Yields ((fibonacciStep recur number).eval k scope) s (.int (Nat.fib n)) := by
  have compared : Yields ((less number (num 2)).eval k scope) s (.bool (decide ((n : Int) < 2))) :=
    binary_yields (numbered s (.refl s)) (fun _ _ => num_yields _) fun _ => rfl
  refine ite_gives compared (fun below t quiet => ?_) fun above t quiet => ?_
  · have small : n = 0 ∨ n = 1 := by
      have below := of_decide_eq_true below
      omega
    rcases small with rfl | rfl
    · exact numbered t quiet
    · exact numbered t quiet
  · obtain ⟨m, rfl⟩ : ∃ m, n = m + 2 := by
      have above := of_decide_eq_false above
      exact ⟨n - 2, by omega⟩
    have sum : (Nat.fib (m + 2) : Int) = (Nat.fib (m + 1) : Int) + (Nat.fib m : Int) := by
      rw [Nat.fib_add_two, Nat.cast_add, Int.add_comm]
    rw [sum]
    exact binary_yields (first m rfl t quiet) (fun u later => second m rfl u (quiet.trans later)) fun _ => rfl

end

/-! Calls of functions that are written in the host language. -/

section

variable {s : Store} {k : Machine} {args : List Value} {bound : Scope} {P : Value → Store → Prop}

theorem closure_gives {mark : Nat} {header : Header} {body : Term} {scope : Scope}
    (binds : header.bind args [] = .ok bound) (gives : Gives (body.eval k (bound ++ scope)) s P) :
    Gives (Machine.callValue k (.closure mark header body scope) args []) s P := by
  rw [Machine.callValue, Machine.callClosure, binds]
  exact gives

theorem definition_gives {b : Builtin} {params : List String} {body : Term}
    (defined : definition? b = some (params, body))
    (binds : ({ name := b.name, path := b.name, params, plain := false } : Header).bind args [] = .ok bound)
    (gives : Gives (body.eval k (bound ++ Machine.preludeScope)) s P) :
    Gives (Machine.callValue k (.builtin b) args []) s P := by
  rw [Machine.callValue, Machine.callBuiltin, defined]
  dsimp only
  rw [binds]
  exact gives

end

/-- A function that gives the values of another one on natural numbers, within some levels of calls. -/
def Computes (f : Value) (values levels : Nat → Nat) : Prop :=
  ∀ (n : Nat) (k : Machine) (s : Store), Affords (levels n) k s →
    Yields (k.call f [.int n] []) s (.int (values n))

/-- The value of a function at a lesser number. -/
theorem recur_yields {s : Store} {k : Machine} {scope : Scope} {recur number : Term} {n v : Nat} (less : Nat)
    (bound : less ≤ n) {F : Value → Store → Prop} (callee : Gives (recur.eval k scope) s F)
    (numbered : ∀ t, Quiet s t → Yields (number.eval k scope) t (.int n))
    (call : ∀ g t u, Quiet s t → F g t → Quiet t u →
      Yields (k.call g [.int (n - less : Nat)] []) u (.int v)) :
    Yields ((app recur [minus number (num less)]).eval k scope) s (.int v) := by
  refine app_gives callee (fun _ t quiet _ => minus_yields less bound (numbered t quiet)) ?_
  rintro g t w u quiet holds later rfl
  exact call g t u quiet holds later

/-! Plain recursion. -/

theorem factorial_computes : Computes (.builtin .factorial) Nat.factorial (· + 1) := by
  intro n
  induction n with
  | zero =>
      intro k s affords
      refine call_gives affords (steady_value _) fun k' _ => ?_
      exact definition_gives rfl rfl (factorialStep_yields 0 (fun _ _ => var_yields rfl) nofun)
  | succ n ih =>
      intro k s affords
      refine call_gives affords (steady_value _) fun k' inner => ?_
      refine definition_gives rfl rfl (factorialStep_yields (n + 1) (fun _ _ => var_yields rfl) ?_)
      intro m same t quiet
      obtain rfl : n = m := by omega
      refine recur_yields 1 (by omega) (prim_yields _) (fun _ _ => var_yields rfl) ?_
      rintro g v u first rfl second
      exact ih k' u (inner.later (quiet.trans (first.trans second)))

theorem fibonacci_computes : Computes (.builtin .fibonacci) Nat.fib (· + 1) := by
  intro n
  induction n using Nat.strong_induction_on with
  | _ n ih =>
      intro k s affords
      refine call_gives affords (steady_value _) fun k' inner => ?_
      refine definition_gives rfl rfl (fibonacciStep_yields n (fun _ _ => var_yields rfl) ?_ ?_)
      · intro m same t quiet
        refine recur_yields 1 (by omega) (prim_yields _) (fun _ _ => var_yields rfl) ?_
        rintro g v u first rfl second
        rw [show n - 1 = m + 1 by omega]
        exact ih (m + 1) (by omega) k' u ((inner.later (quiet.trans (first.trans second))).less (by dsimp only; omega))
      · intro m same t quiet
        refine recur_yields 2 (by omega) (prim_yields _) (fun _ _ => var_yields rfl) ?_
        rintro g v u first rfl second
        rw [show n - 2 = m by omega]
        exact ih m (by omega) k' u ((inner.later (quiet.trans (first.trans second))).less (by dsimp only; omega))

/-! The thunked fixed point. -/

section

/-- What a generator's function shows of itself. -/
def unfoldedHeader (b : Builtin) (doc : Option String) : Header where
  name := "fn"
  path := b.name ++ ".<locals>." ++ "fn"
  params := ["i"]
  plain := false
  doc := doc
  home := b.home

/-- The function that a generator gives for a thunk of itself. -/
def unfolded (b : Builtin) (body : Term) (doc : Option String) (mark thunk : Nat) : Value :=
  .closure mark (unfoldedHeader b doc) body [("self", .thunk thunk (.builtin b)), ("ΓΠ", outermost)]

/-- The thunk asked for its function. -/
def asked : Term := app (var "self") []

variable {b : Builtin} {body : Term} {doc : Option String} {s : Store} {k : Machine}

theorem derive_gives (defined : definition? b = some (["self"], inner b "fn" ["i"] body doc))
    (affords : Affords 1 k s) :
    Gives (FixedPoint.derive k (.builtin b)) s fun v _ => ∃ mark thunk, v = unfolded b body doc mark thunk := by
  rw [FixedPoint.derive]
  refine (fresh_gives s).bind fun thunk t quiet _ => ?_
  have made : Gives (k.app (.builtin b) [.thunk thunk (.builtin b)]) t fun v _ =>
      ∃ mark thunk, v = unfolded b body doc mark thunk := by
    refine call_gives (affords.later quiet) (steady_value _) fun k' _ => ?_
    refine definition_gives defined rfl ((lam_gives _ _).mono ?_)
    rintro v u - ⟨mark, rfl⟩
    exact ⟨mark, thunk, rfl⟩
  refine made.bind ?_
  rintro v u - ⟨mark, thunk, rfl⟩
  exact .pure ⟨mark, thunk, rfl⟩

theorem force_gives (defined : definition? b = some (["self"], inner b "fn" ["i"] body doc)) (thunk : Nat)
    (affords : Affords 2 k s) :
    Gives (k.call (.thunk thunk (.builtin b)) [] []) s fun v _ =>
      ∃ mark thunk, v = unfolded b body doc mark thunk := by
  refine call_gives affords (steady_value _) fun k' inner => ?_
  change Gives (tell _ >>= fun _ => FixedPoint.derive k' (.builtin b)) _ _
  exact (tell_gives _ _).bind fun _ t quiet _ => derive_gives defined (inner.later quiet)

/-- The recursive call of a function that a generator gives. -/
theorem asked_yields (defined : definition? b = some (["self"], inner b "fn" ["i"] body doc)) {n v : Nat}
    (less thunk : Nat) (bound : less ≤ n) (affords : Affords 2 k s)
    (call : ∀ mark thunk t, Quiet s t →
      Yields (k.call (unfolded b body doc mark thunk) [.int (n - less : Nat)] []) t (.int v)) :
    Yields ((app asked [minus (var "i") (num less)]).eval k
      [("i", .int n), ("self", .thunk thunk (.builtin b)), ("ΓΠ", outermost)]) s (.int v) := by
  refine recur_yields less bound (F := fun g _ => ∃ mark thunk, g = unfolded b body doc mark thunk) ?_
    (fun _ _ => var_yields rfl) ?_
  · refine ask_gives (var_yields rfl) ?_
    rintro g t quiet rfl
    exact force_gives defined thunk (affords.later quiet)
  · rintro g t u quiet ⟨mark, thunk, rfl⟩ later
    exact call mark thunk u (quiet.trans later)

theorem build_gives (defined : definition? b = some (["self"], inner b "fn" ["i"] body doc))
    (affords : Affords 2 k s) :
    Gives (Demo.call k .fixedPoint [.builtin b]) s fun v _ =>
      ∃ mark thunk, v = unfolded b body doc mark thunk := by
  refine call_gives affords (steady_value _) fun k' inner => ?_
  change Gives (tell _ >>= fun _ => FixedPoint.derive k' (.builtin b)) _ _
  exact (tell_gives _ _).bind fun _ t quiet _ => derive_gives defined (inner.later quiet)

end

theorem factorialGenerator_computes (mark thunk : Nat) :
    Computes (unfolded .factorialGenerator (factorialStep asked (var "i")) "My type is int -> int." mark thunk)
      Nat.factorial (· + 2) := by
  intro n
  induction n generalizing mark thunk with
  | zero =>
      intro k s affords
      refine call_gives affords (steady_value _) fun k' _ => ?_
      refine closure_gives rfl ?_
      exact factorialStep_yields 0 (fun _ _ => var_yields rfl) nofun
  | succ n ih =>
      intro k s affords
      refine call_gives affords (steady_value _) fun k' inner => ?_
      refine closure_gives rfl ?_
      refine factorialStep_yields (n + 1) (fun _ _ => var_yields rfl) ?_
      intro m same t quiet
      obtain rfl : n = m := by omega
      refine asked_yields (b := .factorialGenerator) rfl 1 thunk (by omega) ((inner.later quiet).less (by omega)) ?_
      intro mark thunk u later
      exact ih mark thunk k' u (inner.later (quiet.trans later))

theorem fibonacciGenerator_computes (mark thunk : Nat) :
    Computes (unfolded .fibonacciGenerator (fibonacciStep asked (var "i")) none mark thunk) Nat.fib
      (· + 1) := by
  intro n
  induction n using Nat.strong_induction_on generalizing mark thunk with
  | _ n ih =>
      intro k s affords
      refine call_gives affords (steady_value _) fun k' inner => ?_
      refine closure_gives rfl ?_
      refine fibonacciStep_yields n (fun _ _ => var_yields rfl) ?_ ?_
      · intro m same t quiet
        refine asked_yields (b := .fibonacciGenerator) rfl 1 thunk (by omega) ((inner.later quiet).less (by omega)) ?_
        intro mark thunk u later
        rw [show n - 1 = m + 1 by omega]
        exact ih (m + 1) (by omega) mark thunk k' u ((inner.later (quiet.trans later)).less (by dsimp only; omega))
      · intro m same t quiet
        refine asked_yields (b := .fibonacciGenerator) rfl 2 thunk (by omega) ((inner.later quiet).less (by omega)) ?_
        intro mark thunk u later
        rw [show n - 2 = m by omega]
        exact ih m (by omega) mark thunk k' u ((inner.later (quiet.trans later)).less (by dsimp only; omega))

/-! Self-application. -/

/-- The function that asks for itself when it is applied. -/
def delayedHeader : Header where
  name := "delayed"
  path := "yc.<locals>.lsf.<locals>.delayed"
  params := ["m"]
  plain := false
  doc := some "sf(sf) only happens when I'm applied."
  home := Builtin.selfFixedPoint.home

def delayedBody : Term := app (app (var "sf") [var "sf"]) [var "m"]

/-- What is applied to itself. -/
def lsfHeader : Header where
  name := "lsf"
  path := Builtin.selfFixedPoint.name ++ ".<locals>." ++ "lsf"
  params := ["sf"]
  plain := false
  doc := some "My type is SqrtFn -> Fn, which is the same as SqrtFn!"
  home := Builtin.selfFixedPoint.home

def codeScope : Scope := [("d", .builtin .factorialCode), ("ΓΠ", outermost)]

/-- The factorial's code as it is applied to itself. -/
def squareRoot (mark : Nat) : Value :=
  .closure mark lsfHeader (app (var "d") [lam delayedHeader delayedBody]) codeScope

def delayed (mark root : Nat) : Value :=
  .closure mark delayedHeader delayedBody (("sf", squareRoot root) :: codeScope)

def codeHeader : Header where
  name := "fn"
  path := Builtin.factorialCode.name ++ ".<locals>." ++ "fn"
  params := ["n"]
  plain := false
  home := Builtin.factorialCode.home

/-- The factorial that the code gives for a delayed one. -/
def coded (mark delay root : Nat) : Value :=
  .closure mark codeHeader (factorialStep (var "factorial") (var "n"))
    [("factorial", delayed delay root), ("ΓΠ", outermost)]

theorem squareRoot_gives (root root' : Nat) {k : Machine} {s : Store} (affords : Affords 2 k s) :
    Gives (k.call (squareRoot root) [squareRoot root'] []) s fun v _ => ∃ mark delay, v = coded mark delay root' := by
  refine call_gives affords (steady_value _) fun k' inner => ?_
  refine closure_gives rfl ?_
  refine app_gives (var_yields rfl) (fun _ _ _ _ => lam_gives _ _) ?_
  rintro g t v u quiet rfl later ⟨delay, rfl⟩
  refine call_gives (inner.later (quiet.trans later)) (steady_value _) fun k'' _ => ?_
  refine definition_gives rfl rfl ((lam_gives _ _).mono ?_)
  rintro v w - ⟨mark, rfl⟩
  exact ⟨mark, delay, rfl⟩

theorem factorialCode_computes (mark delay root : Nat) :
    Computes (coded mark delay root) Nat.factorial (2 * · + 2) := by
  intro n
  induction n generalizing mark delay root with
  | zero =>
      intro k s affords
      refine call_gives affords (steady_value _) fun k' _ => ?_
      refine closure_gives rfl ?_
      exact factorialStep_yields 0 (fun _ _ => var_yields rfl) nofun
  | succ n ih =>
      intro k s affords
      refine call_gives affords (steady_value _) fun k' inner => ?_
      refine closure_gives rfl ?_
      refine factorialStep_yields (n + 1) (fun _ _ => var_yields rfl) ?_
      intro m same t quiet
      obtain rfl : n = m := by omega
      refine recur_yields 1 (by omega) (var_yields rfl) (fun _ _ => var_yields rfl) ?_
      rintro g u₀ u first rfl second
      have since := quiet.trans (first.trans second)
      have deeper : Affords (2 * n + 3) k' u := (inner.later since).less (by omega)
      refine call_gives deeper (steady_value _) fun k'' inner' => ?_
      refine closure_gives rfl ?_
      refine app_gives (F := fun g _ => ∃ mark delay, g = coded mark delay root) ?_
        (fun _ _ _ _ => var_yields rfl) ?_
      · refine app_gives (var_yields rfl) (fun _ _ _ _ => var_yields rfl) ?_
        rintro g v x w first rfl second rfl
        exact squareRoot_gives root root ((inner'.later (first.trans second)).less (by omega))
      · rintro g v x w first ⟨mark, delay, rfl⟩ second rfl
        exact ih mark delay root k'' w (inner'.later (first.trans second))

theorem selfFixedPoint_gives {k : Machine} {s : Store} (affords : Affords 4 k s) :
    Gives (Demo.call k .selfFixedPoint [.builtin .factorialCode]) s fun v _ =>
      ∃ mark delay root, v = coded mark delay root := by
  refine call_gives affords (steady_value _) fun k' inner => ?_
  refine definition_gives rfl rfl ?_
  refine app_gives (prim_yields _) (fun _ _ _ _ => lam_gives _ _) ?_
  rintro g t v u quiet rfl later ⟨root, rfl⟩
  refine call_gives (inner.later (quiet.trans later)) (steady_value _) fun k'' inner' => ?_
  refine definition_gives rfl rfl ?_
  refine app_gives (var_yields rfl) (fun _ _ _ _ => var_yields rfl) ?_
  rintro g v x w first rfl second rfl
  refine (squareRoot_gives root root (inner'.later (first.trans second))).mono ?_
  rintro v y - ⟨mark, delay, rfl⟩
  exact ⟨mark, delay, root, rfl⟩

/-! The thunked fixed point as one expression. -/

section

variable (n : Value)

def expressionHeader (depth : Nat) (params : List String) : Header where
  name := "<lambda>"
  path := Builtin.untypedFactorial.name ++ String.join (List.replicate depth ".<locals>.<lambda>")
  params := params
  plain := false
  home := Builtin.untypedFactorial.home

def expressionScope : Scope := [("n", n), ("ΓΠ", outermost)]

def thunkTerm : Term := lam (expressionHeader 3 []) (app (var "sf") [var "sf"])

def generatorBody : Term :=
  lam (expressionHeader 2 ["i"]) (factorialStep asked (var "i"))

def generatorValue (mark : Nat) : Value :=
  .closure mark (expressionHeader 1 ["self"]) generatorBody (expressionScope n)

/-- What the expression applies to itself. -/
def rootValue (mark generator : Nat) : Value :=
  .closure mark (expressionHeader 2 ["sf"]) (app (var "d") [thunkTerm])
    (("d", generatorValue n generator) :: expressionScope n)

def thunkValue (mark root generator : Nat) : Value :=
  .closure mark (expressionHeader 3 []) (app (var "sf") [var "sf"])
    (("sf", rootValue n root generator) :: ("d", generatorValue n generator) :: expressionScope n)

/-- The factorial that the expression's generator gives for a thunk. -/
def expressionValue (mark thunk root generator : Nat) : Value :=
  .closure mark (expressionHeader 2 ["i"]) (factorialStep asked (var "i"))
    (("self", thunkValue n thunk root generator) :: expressionScope n)

variable {n} {k : Machine} {s : Store}

theorem rootValue_gives (root root' generator : Nat) (affords : Affords 2 k s) :
    Gives (k.call (rootValue n root generator) [rootValue n root' generator] []) s fun v _ =>
      ∃ mark thunk, v = expressionValue n mark thunk root' generator := by
  refine call_gives affords (steady_value _) fun k' inner => ?_
  refine closure_gives rfl ?_
  refine app_gives (var_yields rfl) (fun _ _ _ _ => lam_gives _ _) ?_
  rintro g t v u quiet rfl later ⟨thunk, rfl⟩
  refine call_gives (inner.later (quiet.trans later)) (steady_value _) fun k'' _ => ?_
  refine closure_gives rfl ((lam_gives _ _).mono ?_)
  rintro v w - ⟨mark, rfl⟩
  exact ⟨mark, thunk, rfl⟩

theorem expressionValue_computes (mark thunk root generator : Nat) :
    Computes (expressionValue n mark thunk root generator) Nat.factorial (· + 3) := by
  intro i
  induction i generalizing mark thunk with
  | zero =>
      intro k s affords
      refine call_gives affords (steady_value _) fun k' _ => ?_
      refine closure_gives rfl ?_
      exact factorialStep_yields 0 (fun _ _ => var_yields rfl) nofun
  | succ i ih =>
      intro k s affords
      refine call_gives affords (steady_value _) fun k' inner => ?_
      refine closure_gives rfl ?_
      refine factorialStep_yields (i + 1) (fun _ _ => var_yields rfl) ?_
      intro m same t quiet
      obtain rfl : i = m := by omega
      refine recur_yields 1 (by omega)
        (F := fun g _ => ∃ mark thunk, g = expressionValue n mark thunk root generator) ?_
        (fun _ _ => var_yields rfl) ?_
      · refine ask_gives (var_yields rfl) ?_
        rintro g u later rfl
        have asks : Affords 3 k' u := (inner.later (quiet.trans later)).less (by omega)
        refine call_gives asks (steady_value _) fun k'' inner' => ?_
        refine closure_gives rfl ?_
        refine app_gives (var_yields rfl) (fun _ _ _ _ => var_yields rfl) ?_
        rintro g v x w first rfl second rfl
        exact rootValue_gives root root generator (inner'.later (first.trans second))
      · rintro g t' u first ⟨mark, thunk, rfl⟩ second
        exact ih mark thunk k' u (inner.later (quiet.trans (first.trans second)))

end

theorem untypedFactorial_computes : Computes (.builtin .untypedFactorial) Nat.factorial (· + 5) := by
  intro n k s affords
  refine call_gives affords (steady_value _) fun k' inner => ?_
  refine definition_gives rfl rfl ?_
  refine app_gives (F := fun g _ => ∃ mark thunk root generator,
    g = expressionValue (.int n) mark thunk root generator) ?_ (fun _ _ _ _ => var_yields rfl) ?_
  · refine app_gives (lam_gives _ _) (fun _ _ _ _ => lam_gives _ _) ?_
    rintro g t v u quiet ⟨mark, rfl⟩ later ⟨generator, rfl⟩
    have affords' := (inner.later (quiet.trans later)).less (show 4 ≤ n + 4 by omega)
    refine call_gives affords' (steady_value _) fun k'' inner' => ?_
    refine closure_gives rfl ?_
    refine app_gives (lam_gives _ _) (fun _ _ _ _ => lam_gives _ _) ?_
    rintro g x v y quiet' ⟨mark', rfl⟩ later' ⟨root, rfl⟩
    refine call_gives (inner'.later (quiet'.trans later')) (steady_value _) fun k₃ inner'' => ?_
    refine closure_gives rfl ?_
    refine app_gives (var_yields rfl) (fun _ _ _ _ => var_yields rfl) ?_
    rintro g x v y quiet'' rfl later'' rfl
    refine (rootValue_gives root root generator (inner''.later (quiet''.trans later''))).mono ?_
    rintro v z - ⟨mark, thunk, rfl⟩
    exact ⟨mark, thunk, root, generator, rfl⟩
  · rintro g t v u quiet ⟨mark, thunk, root, generator, rfl⟩ later rfl
    exact expressionValue_computes mark thunk root generator n k' u
      ((inner.later (quiet.trans later)).less (by dsimp only; omega))

end Knot
