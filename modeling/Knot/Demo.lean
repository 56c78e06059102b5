import Knot.Session
import Knot.Settings.Cache

/-!
The demonstration: the factorial by every combinator, each result checked, and a generator without a
base case that fills the stack under a ceiling.
-/

namespace Knot.Demo

open Run

variable (k : Machine)

def call (b : Builtin) (args : List Value) : Run Value := k.app (.builtin b) args

/-- A fixed point, built by a combinator from a generator, and applied. -/
def applyFixedPoint (combinator generator : Builtin) (n : Value) : Run Value := do
  k.app (← call k combinator [.builtin generator]) [n]

/-- The labels of the factorials, by the number as it is written. -/
def factorialLabels (n : String) : List String :=
  [s!"Y {n}!", s!"yc {n}!", s!"Υ {n}!", s!"untyped {n}!"]

def fibonacciLabel : String := "Y fib(20)"

/-- Results under their labels. -/
abbrev Results := Bindings String Value

def compute (n : Int) : Run Results := do
  let shown ← ofExcept (integerText n)
  let y ← applyFixedPoint k .fixedPoint .factorialGenerator (.int n)
  let fib ← applyFixedPoint k .fixedPoint .fibonacciGenerator (.int 20)
  let yc ← applyFixedPoint k .selfFixedPoint .factorialCode (.int n)
  let upsilon ← call k .schemulatedFactorial [.int n]
  let untyped ← call k .untypedFactorial [.int n]
  return [(s!"Y {shown}!", y), (fibonacciLabel, fib), (s!"yc {shown}!", yc),
    (s!"Υ {shown}!", upsilon), (s!"untyped {shown}!", untyped)]

/-- Checks one result in a run. -/
def check (run : Value) (results : Results) (label : String) (expected : Run Value) : Run Unit := do
  discard (checkEq k run ((results.lookup label).getD .none) (← expected) (.str label))

/-- Checks all results in one run. -/
def checkAll (settings : Settings) (results : Results) : Run Unit := do
  let entries ← list []
  let run := Value.checkRun (← fresh) (.str "demo") (.bool true) (.bool settings.trace) entries
  ensuring
    (do
      for label in factorialLabels (← ofExcept (integerText settings.demoN)) do
        check k run results label (call k .factorial [.int settings.demoN])
      check k run results fibonacciLabel (call k .fibonacci [.int 20]))
    (closeRun (.str "demo") (.bool settings.trace) entries)

/-- The demonstration's results under their labels. -/
def run (settings : Settings) : Run Results := do
  let results ← compute k settings.demoN
  checkAll k settings results
  let report ← call k .blownStack [.int settings.exhaustionHeadroom]
  return results ++ [("no base case", report)]

/-- The settings of a run: the ones that it is given, or else the ones that are kept. -/
def chosen (cache : Settings.Cache) (given : Option Settings) :
    Except (List Settings.Complaint) Settings × Settings.Cache :=
  match given with
  | some settings => (.ok settings, cache)
  | none => (cache.get.1.map (·.settings), cache.get.2)

/-- One demonstration after another, until settings do not load. -/
def runs (cache : Settings.Cache) :
    List (Option Settings) → Run (Except (List Settings.Complaint) (List Results))
  | [] => return .ok []
  | given :: rest =>
      match chosen cache given with
      | (.ok settings, cache) => do
          let results ← run k settings
          return (← runs cache rest).map (results :: ·)
      | (.error complaints, _) => return .error complaints

/-- Prints one entry on a line. -/
def printEntry (label : String) (v : Value) : Run Unit := do
  print ((← shown (.dict 0 [(.str label, v)])) ++ "\n")

/-- The whole demonstration as it runs from the command line: the limit that it finds, the limit
that it sets, and every result. -/
def script (settings : Settings) : Run Unit := do
  printEntry "max recursion limit" (← recursionLimit)
  let depth := (← get).stack.depth
  setLimit (← ofExcept (limitOf depth (.int settings.recursionLimit)))
  printEntry s!"setting recursion limit to {settings.recursionLimit}" .none
  for (label, v) in ← run k settings do printEntry label v

/-- Runs a part of the demonstration in a session of its own. -/
def inSession {α : Type} (part : Machine → Run α) : Except Stop α × Store :=
  Session.step (part (Machine.ofFuel Session.fuel)) Session.start

end Knot.Demo
