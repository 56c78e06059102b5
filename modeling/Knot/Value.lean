import Knot.Kind
import Knot.Term

/-!
The values that programs compute. A value that was made in a run carries the mark it got there, so
that two values with the same contents can be told apart. A value shows what it was made with; what
has changed since is kept in the store: the counts of a tally, what a list, an array or a dictionary
holds, and the names bound in a frame.
-/

namespace Knot

/-- What the elements of an array are. -/
inductive DType where
  | bool | int64 | uint64 | float64
  | text (width : Nat)
  | object
  deriving DecidableEq, Repr

/-- Functions that belong to the values of a kind; a special one is known by its name alone. -/
inductive Method where
  | isGlobal | bindingValue | assertEq | summary
  | special (name : String)
  deriving DecidableEq, Repr

namespace Method

def name : Method → String
  | isGlobal => "_is_global"
  | bindingValue => "_get_binding_val"
  | assertEq => "assert_eq"
  | summary => "summary"
  | special name => name

/-- Whether the kind itself gives the method its body. -/
def isOwn (k : Kind) : Method → Bool
  | special name => k.ownMembers.contains name
  | _ => true

/-- The kind of a method of a value of some kind. -/
def kind (k : Kind) (m : Method) : Kind :=
  if m.isOwn k then .method else if k.plainMembers.contains m.name then .general else .slot

end Method

inductive Value where
  | none
  | bool (b : Bool)
  | int (i : Int)
  | float (mark : Nat) (x : Float)
  | str (s : String)
  | list (mark : Nat) (items : List Value)
  | tuple (mark : Nat) (items : List Value)
  | dict (mark : Nat) (entries : List (Value × Value))
  | range (mark : Nat) (start stop step : Int)
  | array (mark : Nat) (dtype : DType) (shape : List Nat) (data : List Value)
  | kind (k : Kind)
  | builtin (b : Builtin)
  | closure (mark : Nat) (header : Header) (body : Term) (scope : List (String × Value))
  | member (k : Kind) (m : Method)
  | method (mark : Nat) (owner : Value) (m : Method)
  | frame (id : Nat)
  | environment (id : Nat) (outer : Value)
  | procedure (mark : Nat) (code env : Value)
  | var (mark : Nat) (sym : Value)
  | application (mark : Nat) (head args env : Value)
  | thunk (mark : Nat) (generator : Value)
  | counted (mark : Nat) (name : String) (generator tally : Value)
  | countedThunk (mark : Nat) (inner tally : Value)
  | tally (mark : Nat) (derivations thunkCalls : Value)
  | checkRun (mark : Nat) (name strict trace results : Value)
  | manager (mark : Nat) (limit : Value)
  | limited (mark : Nat) (manager func : Value)
  | inert (typeName : String)
  | recurring (text : String)

/-- The names a program's functions see, the nearest first. -/
abbrev Scope := List (String × Value)

instance : Inhabited Value := ⟨.none⟩

namespace Value

def ofLiteral (mark : Nat) : Literal → Value
  | .none => .none
  | .bool b => .bool b
  | .int i => .int i
  | .float x => .float mark x
  | .str s => .str s

/-- The kind of a value; none where only the name of its kind is modelled. -/
def kind? : Value → Option Kind
  | none => some .none
  | bool _ => some .bool
  | int _ => some .int
  | float .. => some .float
  | str _ => some .str
  | list .. => some .list
  | tuple .. => some .tuple
  | dict .. => some .dict
  | range .. => some .range
  | array .. => some .array
  | kind _ => some .kind
  | builtin b => some (if b.isGeneral then .general else .function)
  | closure .. | member .. | frame _ | counted .. | countedThunk .. | limited .. => some .function
  | method _ owner m => some ((owner.kind?.map m.kind).getD .method)
  | environment .. => some .environment
  | procedure .. => some .procedure
  | var .. => some .var
  | application .. => some .application
  | thunk .. => some .thunk
  | tally .. => some .tally
  | checkRun .. => some .checkRun
  | manager .. => some .manager
  | inert _ | recurring _ => Option.none

/-- The name of a value's kind. -/
def typeName (v : Value) : String :=
  match v with
  | inert name => name
  | v => (v.kind?.map Kind.name).getD ""

/-- The kind's name in messages about operations on values. -/
def operandName (v : Value) : String :=
  match v with
  | inert name => name
  | v => (v.kind?.map Kind.operandName).getD ""

/-- The text of a value's kind. -/
def typeText (v : Value) : String :=
  match v with
  | inert name => "<class '" ++ name ++ "'>"
  | v => (v.kind?.map Kind.text).getD ""

/-- Whether two marks are those of one value; zero marks no value. -/
def sameMark (a b : Nat) : Bool := a == b && a != 0

/-- Whether two values are one object. Numbers but floats, texts, nothing and the empty tuple have
no identity beside their contents. -/
def same : Value → Value → Bool
  | none, none => true
  | bool a, bool b => a == b
  | int a, int b => a == b
  | str a, str b => a == b
  | kind a, kind b => a == b
  | builtin a, builtin b => a == b
  | member a m, member b n => a == b && m == n
  | frame a, frame b | environment a _, environment b _ => a == b
  | tuple _ [], tuple _ [] => true
  | float a _, float b _ | list a _, list b _ | tuple a _, tuple b _ | dict a _, dict b _
  | range a .., range b .. | array a .., array b .. | closure a .., closure b ..
  | procedure a .., procedure b .. | var a _, var b _ | application a .., application b ..
  | thunk a _, thunk b _ | counted a .., counted b .. | countedThunk a .., countedThunk b ..
  | tally a .., tally b .. | checkRun a .., checkRun b .. | manager a _, manager b _
  | method a .., method b .. | limited a .., limited b .. => sameMark a b
  | _, _ => false

def isCallable : Value → Bool
  | kind _ | builtin _ | closure .. | member .. | method .. | frame _ | procedure ..
  | application .. | thunk .. | counted .. | countedThunk .. | manager .. | limited .. => true
  | _ => false

end Value

end Knot
