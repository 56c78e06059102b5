import Knot.Builtin

/-!
Host programs: expressions with functions, calls, containers and a few statements, evaluated
strictly and from left to right.
-/

namespace Knot

inductive Literal where
  | none
  | bool (b : Bool)
  | int (i : Int)
  | float (x : Float)
  | str (s : String)

inductive BinaryOp where
  | add | sub | mul | floorDiv | mod | less | lessEqual | equal | identical
  deriving DecidableEq, Repr

/-- What a function shows of itself, and how it words a call that does not fit its parameters: a
`plain` function only counts its arguments, another one names its parameters. -/
structure Header where
  name : String
  path : String
  params : List String
  plain : Bool
  doc : Option String := none
  home : String := "__main__"
  deriving DecidableEq, Repr

inductive Term where
  | lit (l : Literal)
  | var (name : String)
  | prim (b : Builtin)
  | define (name : String) (e : Term)
  | letIn (name : String) (e body : Term)
  | call (f : Term) (args : List Term) (named : List (String × Term))
  | lam (header : Header) (body : Term)
  | ite (c a b : Term)
  | not (a : Term)
  | binary (op : BinaryOp) (a b : Term)
  | attr (o : Term) (name : String)
  | hasAttr (o : Term) (name : String)
  | item (o k : Term)
  | set (env : Term) (name : String) (e : Term)
  | del (env : Term) (name : String)
  | list (items : List Term)
  | tuple (items : List Term)
  | dict (entries : List (Term × Term))
  | range (args : List Term)
  | array (e : Term) (dtype : Option String)
  | seq (items : List Term)
  | caught (e : Term)
  | within (manager : Term) (name : String) (body : Term)

namespace Term

/-- A function written in a program. -/
def function (name : String) (params : List String) (body : Term) : Term :=
  lam { name, path := name, params, plain := true } body

/-- A function without a name of its own. -/
def fn (params : List String) (body : Term) : Term := function "<lambda>" params body

/-- A call with positional arguments only. -/
def app (f : Term) (args : List Term) : Term := call f args []

def num (i : Int) : Term := lit (.int i)

end Term

end Knot
