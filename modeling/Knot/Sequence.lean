import Knot.Grid.Selection
import Knot.Printer

/-!
Values as sequences: their length, their members in order, and the member at a place.
-/

namespace Knot

namespace Value

def characters (s : String) : List Value := s.toList.map fun c => str (String.singleton c)

/-- The largest length and the largest index that a machine word holds. -/
def sizeLimit : Nat := 9223372036854775807

/-- The rows of an array along its first axis, or its elements where that is the only one. -/
def arrayRows (dtype : DType) (shape : List Nat) (data : List Value) : List Value :=
  (Grid.parts ⟨dtype, shape, data⟩).map Grid.toValue

def length : Value → Except Fault Nat
  | str s => .ok s.length
  | list _ items | tuple _ items => .ok items.length
  | dict _ entries => .ok entries.length
  | range _ start stop step =>
      let n := rangeLength start stop step
      if n ≤ sizeLimit then .ok n else .error (.overflow .tooLargeForSize)
  | array _ _ [] _ => .error (.type .unsized)
  | array _ _ (n :: _) _ => .ok n
  | v => .error (.type (.noLength v.operandName))

/-- The members of a value in order: characters, keys, rows. -/
def members : Value → Except Fault (List Value)
  | str s => .ok (characters s)
  | list _ items | tuple _ items => .ok items
  | dict _ entries => .ok (entries.map (·.1))
  | range _ start stop step => .ok (rangeItems start stop step)
  | array _ dtype shape@(_ :: _) data => .ok (arrayRows dtype shape data)
  | array .. => .error (.type .unsizedIteration)
  | environment .. => .error (.type (.attributeName "int"))
  | v => .error (.type (.notIterable v.operandName))

/-- The member of a sequence at an index. -/
def memberAt (container : String) (items : List Value) (k : Value) : Except Fault Value := do
  match ← k.index? with
  | some i =>
      if !Word.isSigned i then throw (.index .outOfSize)
      else
        match (position? items.length i).bind (items[·]?) with
        | some v => return v
        | Option.none => throw (.index (.outOfRange container))
  | Option.none =>
      throw (.type (if container = "string" then .badTextIndex k.operandName
        else .badIndex container k.operandName))

/-- The value of an entry, by its key. -/
def entryAt (frames : Nat → Frame) (entries : List (Value × Value)) (k : Value) :
    Except Fault Value := do
  checkKey k
  match entries.find? fun (key, _) => sameKey key k with
  | some (_, v) => return v
  | Option.none => .error (.key (← k.showWith frames))

/-- A kind of thunks for values of another kind, which is the kind of thunks itself. -/
def thunkKindAt (k : Value) : Except Fault Value :=
  let given := match k with
    | tuple _ items => items.length
    | _ => 1
  if given = 1 then .ok (kind .thunk) else .error (.type (.typeArguments Kind.thunk.text given))

/-- The member of a value at an index or key; in an environment, the value of a name. -/
def itemAt (frames : Nat → Frame) (o k : Value) : Except Fault Value :=
  match o with
  | environment .. =>
      match k with
      | str name => o.lookup frames name
      | k => .error (.type (.attributeName k.operandName))
  | str s => memberAt "string" (characters s) k
  | list _ items => memberAt "list" items k
  | tuple _ items => memberAt "tuple" items k
  | range _ start stop step => do
      match ← k.index? with
      | some i =>
          match position? (rangeLength start stop step) i with
          | some n => return int (start + step * n)
          | Option.none => throw (.index (.outOfRange "range object"))
      | Option.none => throw (.type (.badIndex "range" k.operandName))
  | dict _ entries => entryAt frames entries k
  | array _ dtype shape data => Grid.part ⟨dtype, shape, data⟩ k
  | kind .thunk => thunkKindAt k
  | kind kd => .error (.type (.kindNotSubscriptable kd.name))
  | o => .error (.type (.notSubscriptable o.operandName))

end Value

namespace Run

def length (v : Value) : Run Nat := do ofExcept (← head v).length

def members (v : Value) : Run (List Value) := do
  let v ← head v
  let members ← ofExcept v.members
  match v with
  | .array .. => members.mapM marked
  | _ => return members

def truth (v : Value) : Run Bool := do ofExcept (← head v).truth

/-- The table of an environment, once read, is one that programs can hold. -/
def shareTable (o k v : Value) : Run Unit :=
  match o, k with
  | .environment .., .str "__dict__" => modify (·.share v)
  | _, _ => pure ()

/-- `o[k]`: a name's value in an environment, a member of anything else. -/
def item (o k : Value) : Run Value := do
  let v ← ofExcept ((← head o).itemAt (← get).frame (← head k))
  shareTable o k v
  marked v

end Run

end Knot
