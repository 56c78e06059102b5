import Knot.Operation

/-!
Checking that two values are equal. A check gives back the first value, or fails with both values
and what they look like.
-/

namespace Knot.Run

/-- Whether two values are equal; arrays are equal that have one shape and equal elements. -/
def isEqual (actual expected : Value) : Run Bool := do
  let actual ← now actual
  let expected ← now expected
  if actual.isArray || expected.isArray then
    let a ← ofExcept (Grid.ofValue actual)
    let b ← ofExcept (Grid.ofValue expected)
    ofExcept (Grid.equal Value.equal a b)
  else ofExcept (actual.equal expected)

/-- The failure of a check, with the label in front where there is one. -/
def mismatch (actual expected label : Value) : Run Fault := do
  let start ←
    if ← ofExcept (← now label).truth then shownPlain (← binary .add label (.str ": ")) else pure ""
  let e ← shown expected
  let a ← shown actual
  return .mismatch actual expected label (start ++ "expected " ++ e ++ ", got " ++ a)

def assertEq (actual expected label : Value) : Run Value := do
  if ← isEqual actual expected then return actual
  else fault (← mismatch actual expected label)

end Knot.Run
