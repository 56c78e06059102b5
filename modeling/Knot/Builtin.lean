/-!
The functions that every program can use without defining them: the combinators, the example
generators, the checking tools, the closure calculus, and the few general functions beside them.
-/

namespace Knot

inductive Builtin where
  | fixedPoint | selfFixedPoint | selfApply | asGenerator
  | factorialGenerator | fibonacciGenerator | factorialCode | fibonacciCode | factorial | fibonacci
  | assertEq | counting | stackDepth | recursionLimit | recursionHeadroom | tabulate
  | echo | lambda | eval | evalApplication | apply | define
  | untypedFactorial | schemulatedFactorial | blownStack
  | newEnvironment | getRecursionLimit | callable | repr | len
  deriving DecidableEq, Repr

namespace Builtin

/-- Every built-in function with the name that it has in programs and shows of itself. -/
def table : List (String × Builtin) := [
  ("Y", fixedPoint), ("yc", selfFixedPoint), ("self_apply", selfApply),
  ("as_generator", asGenerator), ("factorial_generator", factorialGenerator),
  ("fibonacci_generator", fibonacciGenerator), ("factorial_domain_code", factorialCode),
  ("fibonacci_domain_code", fibonacciCode), ("factorial", factorial), ("fibonacci", fibonacci),
  ("assert_eq", assertEq), ("counting", counting), ("stack_depth", stackDepth),
  ("recursion_limit", recursionLimit), ("recursion_headroom", recursionHeadroom),
  ("tabulate", tabulate), ("ECHO", echo), ("Λ", lambda), ("EVAL", eval),
  ("EVAL_APPLICATION", evalApplication), ("APPLY", apply), ("DEFINE", define),
  ("untyped_factorial", untypedFactorial), ("schemulated_factorial", schemulatedFactorial),
  ("blown_stack", blownStack), ("newenv", newEnvironment),
  ("getrecursionlimit", getRecursionLimit), ("callable", callable), ("repr", repr), ("len", len)]

def name (b : Builtin) : String :=
  match table.find? (·.2 == b) with
  | some (name, _) => name
  | none => ""

/-- The built-in function of a name. -/
def ofName? (name : String) : Option Builtin := table.lookup name

/-- Whether a function is one of the general ones, which are not written in the host language. -/
def isGeneral : Builtin → Bool
  | getRecursionLimit | callable | repr | len => true
  | _ => false

/-- The module that a function comes from. -/
def home : Builtin → String
  | fixedPoint | selfFixedPoint | selfApply | asGenerator => "fixpoint"
  | factorialGenerator | fibonacciGenerator | factorialCode | fibonacciCode | factorial
  | fibonacci => "generators"
  | assertEq | counting | stackDepth | recursionLimit | recursionHeadroom | tabulate => "harness"
  | echo | lambda | eval | evalApplication | apply | define => "schemulator"
  | untypedFactorial | schemulatedFactorial | blownStack => "main"
  | newEnvironment => "__main__"
  | getRecursionLimit => "sys"
  | callable | repr | len => "builtins"

theorem ofName?_name (b : Builtin) : ofName? b.name = some b := by
  cases b <;> decide

end Builtin

end Knot
