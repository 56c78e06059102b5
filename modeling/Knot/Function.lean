import Knot.Environment

/-!
What functions show of themselves: the built-in ones, those that programs make, and those that
belong to the values of a kind.
-/

namespace Knot

/-- The card of a function. -/
def Card.of (name path home : String) (doc : Option String) : Card :=
  { name := .str name, path := .str path, home := .str home, doc := (doc.map .str).getD .none }

/-- What stands in for the last arguments of a built-in function, if they may be left out. -/
def Builtin.defaults : Builtin → List Value
  | eval => [outermost, .none]
  | evalApplication | define => [outermost]
  | apply | lambda => [.none, outermost]
  | assertEq => [.none]
  | _ => []

def Builtin.card (b : Builtin) : Card :=
  { Card.of b.name b.name b.home b.doc? with
    defaults := if b.defaults.isEmpty then .none else .tuple 0 b.defaults }

def Header.card (header : Header) : Card := .of header.name header.path header.home header.doc

namespace Method

def path (k : Kind) (m : Method) : String := (if m.isOwn k then k.name else "object") ++ "." ++ m.name

def card (k : Kind) (m : Method) : Card := .of m.name (m.path k) k.home (m.doc? k)

end Method

namespace Value

/-- What a kind shows of itself like a function. -/
def kindCard (k : Kind) : Card := .of k.name k.name k.home k.doc?

/-- The name of a function made by a manager of a value that shows nothing of itself. -/
def limitedCard : Card :=
  .of "inner" "ContextDecorator.__call__.<locals>.inner" "contextlib" Option.none

/-- What a function shows of itself; none for a value that is no function. A function under a limit
shows what the function itself shows. -/
def card? (frames : Nat → Frame) : Value → Option Card
  | frame id => some (frames id).card
  | builtin b => some b.card
  | closure _ header _ _ => some header.card
  | counted _ name _ _ => some (.of name "counting.<locals>.counted" "harness" Option.none)
  | countedThunk .. => some (.of "thunk" "counting.<locals>.thunk" "harness" Option.none)
  | limited _ _ (kind k) => some (kindCard k)
  | limited _ _ func => some ((func.card? frames).getD limitedCard)
  | member k m => some (m.card k)
  | method _ owner m => some (m.card (owner.kind?.getD .function))
  | _ => Option.none

/-- The name that a function or a kind has. -/
def ownName? (frames : Nat → Frame) (v : Value) : Option String :=
  match v with
  | kind k => some k.name
  | v => (v.card? frames).map Card.nameText

end Value

end Knot
