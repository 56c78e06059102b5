import Knot.Operation

/-!
The recursion ceiling: how deep calls may be nested. A manager sets a limit for the time of a block
and can be entered once; a limit is refused that is no number of a machine word, not positive, or
already reached.
-/

namespace Knot.Run

/-- The depth of calls where the run is. -/
def stackDepth : Run Value := return .int (← get).stack.depth

def recursionLimit : Run Value := return .int (← get).stack.limit

def setLimit (limit : Nat) : Run Unit :=
  modify fun s => { s with stack := { s.stack with limit } }

/-- The limit that a value stands for, if it can be set at a depth. -/
def limitOf (depth : Nat) (v : Value) : Except Fault Nat := do
  match ← v.index? with
  | none => throw (.type (.notInteger v.operandName))
  | some i =>
      if !Word.isShort i then throw (.overflow .tooLargeForLimit)
      else if i ≤ 0 then throw (.value .limitTooSmall)
      else if i ≤ depth then throw .stackExhausted
      else return i.toNat

def manager (limit : Value) : Run Value := return .manager (← fresh) limit

/-- A manager of the limit that leaves room for `frames` calls below the caller. -/
def headroom (frames : Value) : Run Value := do
  manager (← binary .add (← stackDepth) frames)

/-- Enters a manager, which can be done once; the limit before is kept. -/
def enter (mark : Nat) (limit : Value) : Run Value := do
  let s ← get
  if (s.entered.lookup mark).isSome then fault (Value.lacks (.manager mark limit) "args")
  else
    modify fun s => { s with entered := s.entered.assign mark s.stack.limit }
    setLimit (← ofExcept (limitOf s.stack.depth limit))
    return limit

/-- Leaves a manager: the limit before it was entered is set again. -/
def leave (mark : Nat) : Run Unit := do
  match (← get).entered.lookup mark with
  | some before => setLimit before
  | none => return ()

/-- Runs a block under a manager's limit; the limit before is set again however the block ends. -/
def underLimit {α : Type} (mark : Nat) (limit : Value) (block : Run α) : Run α := do
  discard (enter mark limit)
  ensuring block (leave mark)

/-- Runs a block under the limit of a manager that was not entered yet, which stays so. -/
def underSameLimit {α : Type} (manager : Value) (block : Run α) : Run α := do
  match manager with
  | .manager mark limit =>
      if ((← get).entered.lookup mark).isSome then fault (manager.lacks "func")
      else underLimit (← fresh) limit block
  | v => fault (v.lacks "_recreate_cm")

end Knot.Run
