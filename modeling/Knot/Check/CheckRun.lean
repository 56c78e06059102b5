import Knot.Check.Assertion
import Knot.Machine
import Knot.Sequence

/-!
Check runs: a list of labelled checks, each passed or failed. A strict run stops at a failed check,
a lenient one only records it; a traced run also prints what it records.
-/

namespace Knot.Run

/-- Prints a value under a key, on a line of its own after an empty one. -/
def echo (key x : Value) : Run Value := do
  print "\n"
  ofExcept key.checkKey
  print ((← page (.dict 0 [(key, x)])) ++ "\n")
  return x

/-- Adds an entry to a list; an environment tells by its bindings how that is done. -/
def append (k : Machine) (target entry : Value) : Run Unit := do
  match target with
  | .list mark items =>
      modify fun s => { s with contents := s.contents.assign mark (s.items mark items ++ [entry]) }
  | .environment .. => discard (k.app (← lookup target "append") [entry])
  | v => fault (v.lacks "append")

/-- Records a check under its label. -/
def record (k : Machine) (results label : Value) (ok : Bool) : Run Unit := do
  append k results (← tuple [label, .bool ok])

/-- The label of a check: the one that it is given, or the run's name with the number of checks
before. -/
def checkLabel (name results label : Value) : Run Value := do
  if ← truth label then return label
  else
    let name ← shownPlain name
    let n ← length results
    return .str s!"{name}[{n}]"

/-- What a run does where an assertion fails: it records the label, shows the mismatch where it is
to show it, and stops where it is strict. Every other fault goes on. -/
def failed (k : Machine) (strict trace results label : Value) (f : Fault) : Run (Option Value) :=
  match f with
  | .mismatch _ _ _ shown => do
      record k results label false
      if ← truth trace then discard (echo (.str "AssertionFailure") (.str shown))
      if ← truth strict then fault f else return none
  | f => fault f

/-- A check in a run: recorded, then echoed if the run is traced, then raised if it is strict. -/
def checkEq (k : Machine) (run actual expected label : Value) : Run Value :=
  match run with
  | .checkRun _ name strict trace results => do
      let label ← checkLabel name results label
      let outcome ← recover (some <$> assertEq actual expected label)
        (failed k strict trace results label)
      match outcome with
      | some _ =>
          record k results label true
          return actual
      | none => return actual
  | v => fault (v.lacks "assert_eq")

def unpackPair (vs : List Value) : Run (Value × Value) :=
  match vs with
  | [a, b] => return (a, b)
  | vs =>
      if vs.length < 2 then fault (.value (.tooFewToUnpack 2 vs.length))
      else fault (.value (.tooManyToUnpack 2))

/-- The two parts of an entry. -/
def pairOf (entry : Value) : Run (Value × Value) := do
  match entry with
  | .list .. | .tuple .. | .str _ | .dict .. | .range .. | .array .. | .environment .. =>
      unpackPair (← members entry)
  | v => fault (.type (.cannotUnpack v.operandName))

/-- The labels of the entries that passed, or of those that failed. -/
def labelsWhere (passed : Bool) (results : Value) : Run (List Value) := do
  let entries ← members results
  let labels ← entries.mapM fun entry => do
    let (label, ok) ← pairOf entry
    return if (← truth ok) = passed then some label else none
  return labels.filterMap id

def count (passed : Bool) (results : Value) : Run Value :=
  return .int (← labelsWhere passed results).length

/-- What a run has recorded. -/
def summary (name results : Value) : Run Value := do
  let passed ← count true results
  let failed ← count false results
  let failures ← list (← labelsWhere false results)
  dict [(.str "run", name), (.str "passed", passed), (.str "failed", failed),
    (.str "failures", failures)]

/-- The end of a run: a traced one echoes its summary. -/
def closeRun (name trace results : Value) : Run Unit := do
  if ← truth trace then discard (echo (.str "CheckRun") (← summary name results))

end Knot.Run
