import Knot.Call.Function
import Knot.Call.Making
import Knot.Call.Method

/-!
Running host programs. A term is evaluated strictly and from left to right; a function keeps the
scope that it was made in, and names that are in no scope are the session's or built in.
-/

namespace Knot

open Run

/-! What each form does with its parts, which are run where their turn comes. -/

namespace Form

/-- The value of a name that every program has. -/
def known (name : String) : Run Value :=
  if name = "ΓΠ" then return outermost
  else
    match Builtin.ofName? name, Kind.ofName? name with
    | some b, _ => return .builtin b
    | none, some k => return .kind k
    | none, none => fault (.name (.undefined name))

def resolve (scope : Scope) (name : String) : Run Value := do
  match scope.lookup name with
  | some v => return v
  | none =>
      match (← get).session.lookup name with
      | some v => return v
      | none => known name

def literal (l : Literal) : Run Value := do
  match l with
  | .float x => float x
  | l => return .ofLiteral 0 l

def defining (name : String) (e : Run Value) : Run Value := do
  let v ← e
  modify fun s => { s with session := s.session.assign name v }
  return v

def binding (e : Run Value) (body : Value → Run Value) : Run Value := e >>= body

/-- Named arguments, of which the last counts where one is given twice. -/
def merged (named : Named) : Named :=
  named.foldl (fun merged (name, v) => Bindings.assign name v merged) []

def calling (k : Machine) (f : Run Value) (args : Run (List Value)) (named : Run Named) :
    Run Value := do
  let f ← f
  let args ← args
  let named ← named
  k.call f args (merged named)

def closing (header : Header) (body : Term) (scope : Scope) : Run Value :=
  return .closure (← fresh) header body scope

def choosing (c a b : Run Value) : Run Value := do
  if ← truth (← c) then a else b

def negating (a : Run Value) : Run Value := return .bool (!(← truth (← a)))

def operating (op : BinaryOp) (a b : Run Value) : Run Value := do
  let a ← a
  let b ← b
  binary op a b

def selecting (o : Run Value) (name : String) : Run Value := o >>= fun o => getAttribute o name

def probing (o : Run Value) (name : String) : Run Value := do
  return .bool (← hasAttribute (← o) name)

def subscripting (o key : Run Value) : Run Value := do
  let o ← o
  let key ← key
  item o key

def setting (env : Run Value) (name : String) (e : Run Value) : Run Value := do
  let id ← frameOf (← env)
  bind id name (← e)
  return .none

def deleting (env : Run Value) (name : String) : Run Value := do
  unbind (← frameOf (← env)) name
  return .none

def integer (v : Value) : Except Fault Int := do
  match ← v.index? with
  | some i => return i
  | none => throw (.type (.notInteger v.operandName))

/-- An arithmetic progression of one to three integers. -/
def progression (args : List Value) : Run Value := do
  match ← ofExcept (args.mapM integer) with
  | [stop] => return .range (← fresh) 0 stop 1
  | [start, stop] => return .range (← fresh) start stop 1
  | [start, stop, step] =>
      if step = 0 then fault (.value .zeroStep) else return .range (← fresh) start stop step
  | [] => fault (Signature.arity (.expectedAtLeast Kind.range.name 1 0))
  | args => fault (Signature.arity (.expectedAtMost Kind.range.name 3 args.length))

/-- Values as they are read into arrays now. -/
def reading (s : Store) : Grid.Reading := ⟨fun v => (s.view v).showPlain s.frame, Value.truth⟩

def gridding (e : Run Value) (dtype : Option String) : Run Value := do
  let v ← now (← e)
  let requested ← match dtype with
    | some name =>
        match Grid.dtypeOfName? name with
        | some d => pure (some d)
        | none => fault (.type (.unknownDType (Text.quoted name)))
    | none => pure none
  let grid ← ofExcept (Grid.make (reading (← get)) requested v)
  array grid.dtype grid.shape grid.data

/-- The value, or the name of the fault's kind. -/
def catching (e : Run Value) : Run Value := recover e fun f => return .str f.kind

/-- Runs a block with what a manager gives; a check run gives itself, a limit its value. -/
def managing (manager : Run Value) (body : Value → Run Value) : Run Value := do
  match ← manager with
  | .manager mark limit => underLimit mark limit (body limit)
  | run@(.checkRun _ name _ trace results) => ensuring (body run) (closeRun name trace results)
  | v => fault (.type (.notManager v.operandName))

def adding (key value : Run Value) (rest : List (Value × Value) → Run (List (Value × Value)))
    (entries : List (Value × Value)) : Run (List (Value × Value)) := do
  let key ← key
  let value ← value
  ofExcept key.checkKey
  rest (Value.insertEntry key value entries)

def following (first : Run Value) (rest : Run (List Value)) : Run (List Value) := do
  let v ← first
  let vs ← rest
  return v :: vs

def followingNamed (name : String) (first : Run Value) (rest : Run Named) : Run Named := do
  let v ← first
  let vs ← rest
  return (name, v) :: vs

end Form

namespace Term

open Form

mutual

def eval (k : Machine) (t : Term) (scope : Scope) : Run Value :=
  match t with
  | lit l => literal l
  | var name => resolve scope name
  | prim b => pure (.builtin b)
  | define name e => defining name (eval k e scope)
  | letIn name e body => binding (eval k e scope) fun v => eval k body ((name, v) :: scope)
  | call f args named => calling k (eval k f scope) (evalAll k args scope) (evalNamed k named scope)
  | lam header body => closing header body scope
  | ite c a b => choosing (eval k c scope) (eval k a scope) (eval k b scope)
  | not a => negating (eval k a scope)
  | binary op a b => operating op (eval k a scope) (eval k b scope)
  | attr o name => selecting (eval k o scope) name
  | hasAttr o name => probing (eval k o scope) name
  | item o key => subscripting (eval k o scope) (eval k key scope)
  | set env name e => setting (eval k env scope) name (eval k e scope)
  | del env name => deleting (eval k env scope) name
  | list items => evalAll k items scope >>= Run.list
  | tuple items => evalAll k items scope >>= Run.tuple
  | dict entries => evalEntries k entries scope [] >>= Run.dict
  | range args => evalAll k args scope >>= progression
  | array e dtype => gridding (eval k e scope) dtype
  | seq items => (fun vs => vs.getLastD .none) <$> evalAll k items scope
  | caught e => catching (eval k e scope)
  | within manager name body =>
      managing (eval k manager scope) fun v => eval k body ((name, v) :: scope)

def evalAll (k : Machine) (ts : List Term) (scope : Scope) : Run (List Value) :=
  match ts with
  | [] => pure []
  | t :: rest => following (eval k t scope) (evalAll k rest scope)

def evalNamed (k : Machine) (ts : List (String × Term)) (scope : Scope) : Run Named :=
  match ts with
  | [] => pure []
  | (name, t) :: rest => followingNamed name (eval k t scope) (evalNamed k rest scope)

def evalEntries (k : Machine) (ts : List (Term × Term)) (scope : Scope)
    (entries : List (Value × Value)) : Run (List (Value × Value)) :=
  match ts with
  | [] => pure entries
  | (key, t) :: rest => adding (eval k key scope) (eval k t scope) (evalEntries k rest scope) entries

end

theorem eval_var (k : Machine) (name : String) (scope : Scope) :
    (var name).eval k scope = resolve scope name := by
  rw [eval]

theorem evalAll_one (k : Machine) (t : Term) (scope : Scope) :
    evalAll k [t] scope = following (t.eval k scope) (pure []) := by
  rw [evalAll, evalAll]

end Term

namespace Machine

/-- The names that the bodies of built-ins see beside their parameters. -/
def preludeScope : Scope := [("ΓΠ", outermost)]

def callBuiltin (k : Machine) (b : Builtin) (args : List Value) (named : Named) : Run Value :=
  match Prelude.definition? b with
  | some (params, body) => do
      let header : Header := { name := b.name, path := b.name, params, plain := false }
      body.eval k ((← ofExcept (header.bind args named)) ++ preludeScope)
  | none => b.call k args named

def callClosure (k : Machine) (header : Header) (body : Term) (scope : Scope) (args : List Value)
    (named : Named) : Run Value := do
  body.eval k ((← ofExcept (header.bind args named)) ++ scope)

/-- The one argument of a counted generator. -/
def callCounted (k : Machine) (generator tally : Value) (args : List Value) (named : Named) :
    Run Value := do
  let signature : Signature := ⟨"counting.<locals>.counted", Signature.required ["self"], false⟩
  let values ← ofExcept (signature.bind args named)
  FixedPoint.deriveCounted k generator tally ((values.head?).join.getD .none)

/-- A procedure takes any number of arguments, none of them named. -/
def callProcedure (k : Machine) (proc env : Value) (args : List Value) (named : Named) :
    Run Value := do
  ofExcept ((Signature.mk "Procedure.__call__" [] true).checkUnnamed named)
  Calculus.apply k proc (← list args) env

def callApplication (k : Machine) (expr env : Value) (args : List Value) (named : Named) :
    Run Value := do
  discard (ofExcept ((Signature.mk "Application.__call__" [] true).bind args named))
  Calculus.evalApplication k expr env

/-- A thunk takes names too, except that of its receiver, before it refuses them. -/
def callThunk (k : Machine) (generator : Value) (args : List Value) (named : Named) : Run Value := do
  if named.any fun (name, _) => name == "self" then
    fault (Signature.arity (.repeated "Thunk.__call__" "self"))
  else FixedPoint.force k generator args named

/-- A frame is a function of nothing that does nothing. -/
def callFrame (id : Nat) (args : List Value) (named : Named) : Run Value := do
  let path := ((← get).frame id).card.pathText
  discard (ofExcept ((Signature.mk path [] false).bind args named))
  return .none

/-- A manager makes of a function one that runs under its limit. -/
def callManager (manager : Value) (args : List Value) (named : Named) : Run Value := do
  let signature : Signature := ⟨"ContextDecorator.__call__", Signature.required ["func"], true⟩
  let values ← ofExcept (signature.bind args named)
  return .limited (← fresh) manager ((values.head?).join.getD .none)

/-- Calling a value. -/
def callValue (k : Machine) (f : Value) (args : List Value) (named : Named) : Run Value :=
  match f with
  | .builtin b => callBuiltin k b args named
  | .closure _ header body scope => callClosure k header body scope args named
  | .kind kd => kd.call args named
  | .method _ owner m => m.call k owner args named
  | .member kd m => m.callUnbound k kd args named
  | .frame id => callFrame id args named
  | .procedure _ _ env => callProcedure k f env args named
  | .application _ _ _ env => callApplication k f env args named
  | .thunk _ generator => callThunk k generator args named
  | .manager .. => callManager f args named
  | .limited _ manager func => underSameLimit manager (k.call func args named)
  | .counted _ _ generator tally => callCounted k generator tally args named
  | .countedThunk _ inner tally => FixedPoint.forceCounted k inner tally args named
  | v => fault (.type (.notCallable v.operandName))

/-- The machine with fuel for `n` levels of calls and evaluations. -/
def ofFuel : Nat → Machine
  | 0 => spent
  | n + 1 =>
      ⟨fun f args named => deeper (callValue (ofFuel n) f args named),
        fun expr env => deeper (Calculus.eval (ofFuel n) expr env)⟩

end Machine

end Knot
