import Knot.Attribute
import Knot.Machine

/-!
Fixed points of generators. A generator never names the function that it defines: it gets a thunk,
and calling the thunk builds the fixed point again, from the same generator. A counting wrapper
counts how often a generator derives its function and how often the thunk is asked.
-/

namespace Knot.FixedPoint

open Run

/-- The generator applied to its thunk; what comes back has to be a function. -/
def derive (k : Machine) (generator : Value) : Run Value := do
  let thunk := Value.thunk (← fresh) generator
  let result ← k.app generator [thunk]
  if result.isCallable then return result
  else
    let generator ← shownPlain generator
    let result ← shown result
    fault (.contract (.generatorReturned generator result))

/-- The fixed point of a generator. -/
def build (k : Machine) (generator : Value) : Run Value := do
  tell (.built generator)
  derive k generator

/-- A thunk takes no arguments: the fault shows the ones it was given, in a tuple and by name. -/
def refuse (args : List Value) (named : Named) : Run Value := do
  let positional ← shown (← tuple args)
  let named ← named.mapM fun entry => return (Text.quoted entry.1, ← shown entry.2)
  fault (.contract (.appliedThunk positional (Value.dictText named)))

/-- Calling a thunk: without arguments it derives the fixed point again. -/
def force (k : Machine) (generator : Value) (args : List Value) (named : Named) : Run Value := do
  match args, named with
  | [], [] => do
      tell (.asked generator)
      derive k generator
  | args, named => refuse args named

/-- The counters of a tally. -/
inductive Counter where
  | derivations | thunkCalls

def Counter.name : Counter → String
  | derivations => "derivations"
  | thunkCalls => "thunk_calls"

/-- Adds one to a counter of a tally. -/
def bump (tally : Value) (counter : Counter) : Run Unit := do
  setAttribute tally counter.name (← increment (← getAttribute tally counter.name))

/-- A counted generator gets its thunk, wrapped so that calls of it are counted too. -/
def deriveCounted (k : Machine) (generator tally thunk : Value) : Run Value := do
  bump tally .derivations
  tell (.derived tally)
  k.app generator [.countedThunk (← fresh) thunk tally]

/-- A counted call of a thunk; the thunk itself judges the arguments. -/
def forceCounted (k : Machine) (inner tally : Value) (args : List Value) (named : Named) :
    Run Value := do
  bump tally .thunkCalls
  tell (.passed tally inner (args.isEmpty && named.isEmpty))
  k.call inner args named

/-- A generator that counts, named for the generator that it wraps. -/
def counting (generator tally : Value) : Run Value := do
  let name := (generator.ownName? (← get).frame).getD "g"
  return .counted (← fresh) s!"counting({name})" generator tally

/-- The code's function, which asks the thunk when it is applied. -/
def adaptedBody : Term :=
  let path := "as_generator.<locals>.generator.<locals>.<lambda>"
  let header : Header :=
    { name := "<lambda>", path, params := ["n"], plain := false, home := "fixpoint" }
  .app (.var "d") [.lam header (.app (.app (.var "self") []) [.var "n"])]

/-- Direct-style code as a generator, named for the code. -/
def adapter (code : Value) : Run Value := do
  let name := (code.ownName? (← get).frame).getD "d"
  let path := "as_generator.<locals>.generator"
  return .closure (← fresh)
    { name := s!"as_generator({name})", path, params := ["self"], plain := false, home := "fixpoint" }
    adaptedBody [("d", code)]

end Knot.FixedPoint
