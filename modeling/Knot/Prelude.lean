import Knot.Value

/-!
Functions written in the host language itself: the combinators without a recursive binding, the
example generators, and plain recursive functions to check them against.
-/

namespace Knot.Prelude

open Term

/-- A function of a module whose calls name its parameters. -/
def named (home name path : String) (params : List String) (body : Term)
    (doc : Option String := none) : Term :=
  lam { name, path, params, plain := false, doc, home } body

/-- A function inside a built-in one. -/
def inner (outer : Builtin) (name : String) (params : List String) (body : Term)
    (doc : Option String := none) : Term :=
  named outer.home name (outer.name ++ ".<locals>." ++ name) params body doc

/-- A function without a name, so many functions deep in what has the path `outer`. -/
def nameless (home outer : String) (depth : Nat) (params : List String) (body : Term) : Term :=
  named home "<lambda>" (outer ++ String.join (List.replicate depth ".<locals>.<lambda>")) params body

def less (a b : Term) : Term := binary .less a b
def minus (a b : Term) : Term := binary .sub a b
def times (a b : Term) : Term := binary .mul a b
def plus (a b : Term) : Term := binary .add a b

/-- `1` below `1`, else the number times the function of its predecessor. -/
def factorialStep (recur n : Term) : Term :=
  ite (less n (num 1)) (num 1) (times n (app recur [minus n (num 1)]))

/-- The number itself below `2`, else the sum of the function of its two predecessors. -/
def fibonacciStep (recur n : Term) : Term :=
  ite (less n (num 2)) n (plus (app recur [minus n (num 1)]) (app recur [minus n (num 2)]))

/-- The fixed point by self-application, the self-application delayed until it is applied. -/
def selfFixedPoint : Term :=
  let delayed := named Builtin.selfFixedPoint.home "delayed" "yc.<locals>.lsf.<locals>.delayed" ["m"]
    (app (app (var "sf") [var "sf"]) [var "m"]) "sf(sf) only happens when I'm applied."
  app (prim .selfApply) [inner .selfFixedPoint "lsf" ["sf"] (app (var "d") [delayed])
    "My type is SqrtFn -> Fn, which is the same as SqrtFn!"]

/-- The thunked fixed point and the factorial generator as one expression. -/
def untypedFactorial : Term :=
  let b := Builtin.untypedFactorial
  let lambda := nameless b.home b.name
  let selfApply := lambda 2 ["g"] (app (var "g") [var "g"])
  let thunk := lambda 3 [] (app (var "sf") [var "sf"])
  let fixedPoint := lambda 1 ["d"] (app selfApply [lambda 2 ["sf"] (app (var "d") [thunk])])
  let generator :=
    lambda 1 ["self"] (lambda 2 ["i"] (factorialStep (app (var "self") []) (var "i")))
  app (app fixedPoint [generator]) [var "n"]

/-- The factorial generator as a procedure of the calculus, given to the outermost `Υ`. -/
def schemulatedFactorial : Term :=
  let b := Builtin.schemulatedFactorial
  let lambda := nameless b.home b.name
  let i := attr (var "π") "i"
  let body := lambda 2 ["π"] (factorialStep (app (attr (var "π") "self") []) i)
  let generator := app (prim .lambda)
    [lambda 1 ["πs"] (app (prim .lambda) [body, list [lit (.str "i")], var "πs"]),
      list [lit (.str "self")]]
  app (app (attr (var "ΓΠ") "Υ") [generator]) [var "n"]

/-- The parameters and the body of a built-in that is written in the host language. -/
def definition? : Builtin → Option (List String × Term)
  | .selfApply => some (["g"], app (var "g") [var "g"])
  | .selfFixedPoint => some (["d"], selfFixedPoint)
  | .factorialGenerator =>
      some (["self"], inner .factorialGenerator "fn" ["i"]
        (factorialStep (app (var "self") []) (var "i")) "My type is int -> int.")
  | .fibonacciGenerator =>
      some (["self"], inner .fibonacciGenerator "fn" ["i"]
        (fibonacciStep (app (var "self") []) (var "i")))
  | .factorialCode =>
      some (["factorial"], inner .factorialCode "fn" ["n"]
        (factorialStep (var "factorial") (var "n")))
  | .fibonacciCode =>
      some (["fib"], inner .fibonacciCode "fn" ["n"] (fibonacciStep (var "fib") (var "n")))
  | .factorial => some (["n"], factorialStep (prim .factorial) (var "n"))
  | .fibonacci => some (["n"], fibonacciStep (prim .fibonacci) (var "n"))
  | .untypedFactorial => some (["n"], untypedFactorial)
  | .schemulatedFactorial => some (["n"], schemulatedFactorial)
  | _ => none

/-! The combinators of the calculus, which the outermost environment binds. -/

/-- A body of one environment, in so many others. -/
def bodyOf (depth : Nat) (env : String) (e : Term) : Term :=
  nameless Builtin.lambda.home "<lambda>" depth [env] e

/-- A procedure closed over an environment. -/
def procedure (body : Term) (params : List String) (env : Term) : Term :=
  app (prim .lambda) [body, list (params.map fun p => lit (.str p)), env]

/-- In the environment `πd` of `d`: `(λ g. g g) (λ sf. d delayed)`, where `delayed` is made in the
environment `πsf` of `sf`. -/
def fixedPointBody (delayed : Term) : Term :=
  app (procedure (bodyOf 1 "πg" (app (attr (var "πg") "g") [attr (var "πg") "g"])) ["g"] (var "πd"))
    [procedure (bodyOf 1 "πsf" (app (attr (var "πd") "d") [delayed])) ["sf"] (var "πd")]

/-- The delay is a procedure without parameters. -/
def thunkedBody : Term :=
  fixedPointBody (procedure (bodyOf 2 "πt" (app (attr (var "πt") "sf") [attr (var "πt") "sf"])) []
    (var "πsf"))

/-- The delay is a procedure of one parameter. -/
def directBody : Term :=
  fixedPointBody (procedure
    (bodyOf 2 "π" (app (app (attr (var "π") "sf") [attr (var "π") "sf"]) [attr (var "π") "m"])) ["m"]
    (var "πsf"))

end Knot.Prelude
