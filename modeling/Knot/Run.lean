import Knot.Store

/-!
Runs: computations that change the store and end with a value or a fault, or have not ended when
their fuel is spent. A fault keeps every change made before it.
-/

namespace Knot

/-- Why a run has no value. -/
inductive Stop where
  | fault (f : Fault)
  | outOfFuel

abbrev Run := EStateM Stop Store

namespace Run

def fault {α : Type} (f : Fault) : Run α := throw (.fault f)

def outOfFuel {α : Type} : Run α := throw .outOfFuel

def ofExcept {α : Type} : Except Fault α → Run α
  | .ok a => pure a
  | .error f => fault f

/-- Continues after a fault as the handler says; a run out of fuel stays so. -/
def recover {α : Type} (x : Run α) (handle : Fault → Run α) : Run α := fun s =>
  match x s with
  | .error (.fault f) s' => handle f s'
  | r => r

/-- Runs `last` after `x`, whether `x` ended with a value or a fault. -/
def ensuring {α : Type} (x : Run α) (last : Run Unit) : Run α := do
  let a ← recover x fun f => do last; fault f
  last
  return a

/-- A mark that no value has. -/
def fresh : Run Nat := modifyGet fun s => (s.nextMark, { s with nextMark := s.nextMark + 1 })

def float (x : Float) : Run Value := return .float (← fresh) x

def list (items : List Value) : Run Value := return .list (← fresh) items

def tuple (items : List Value) : Run Value := return .tuple (← fresh) items

def dict (entries : List (Value × Value)) : Run Value := return .dict (← fresh) entries

def array (dtype : DType) (shape : List Nat) (data : List Value) : Run Value :=
  return .array (← fresh) dtype shape data

/-- A tally that starts with two counts. -/
def tally (derivations thunkCalls : Value) : Run Value := do
  let mark ← fresh
  modify fun s => { s with tallies := s.tallies.assign mark (derivations, thunkCalls) }
  return .tally mark derivations thunkCalls

/-- A value with a mark of its own: one that was made for whoever asked has none yet. -/
def marked (v : Value) : Run Value := do
  match v with
  | .float 0 x => float x
  | .list 0 items => list items
  | .tuple 0 items => tuple items
  | .dict 0 entries => dict entries
  | .range 0 start stop step => return .range (← fresh) start stop step
  | .array 0 dtype shape data => array dtype shape data
  | .method 0 owner m => return .method (← fresh) owner m
  | v => return v

/-- Tells what is done. -/
def tell (d : Deed) : Run Unit := modify (·.did d)

def print (text : String) : Run Unit := modify fun s => { s with out := s.out ++ text }

/-- The value as it is now. -/
def now (v : Value) : Run Value := return (← get).now v

/-- The value with the members that it has now. -/
def head (v : Value) : Run Value := return (← get).head v

/-- The store with the depth of its stack set. -/
def atDepth (depth : Nat) (s : Store) : Store := { s with stack := { s.stack with depth } }

/-- Runs `x` one call deeper, if the stack has room for it. Where no room is given, calls are not
counted. -/
def deeper {α : Type} (x : Run α) : Run α := fun s =>
  if s.stack.room.isNone then x s
  else if s.stack.full then .error (.fault .stackExhausted) (s.did .refused)
  else
    let depth := s.stack.depth
    match x (atDepth (depth + 1) s) with
    | .ok a s => .ok a (atDepth depth s)
    | .error e s => .error e (atDepth depth s)

end Run

end Knot
