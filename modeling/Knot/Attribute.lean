import Knot.Check.CheckRun

/-!
Attributes of values: the parts that a value holds, what its kind gives to every value, and what
functions show of themselves. An environment looks every other name up as a binding, unless it
starts with two underscores.
-/

namespace Knot

namespace Kind

/-- Whether a kind is written in the host language itself, so that its values tell where it is at
home. -/
def isHosted (k : Kind) : Bool := k.isRecord || k == thunk || k == manager

/-- The names of the parts that values of a kind are made of. -/
def fields : Kind → List String
  | environment => ["φ", "π"]
  | procedure => ["code", "π"]
  | var => ["sym"]
  | application => ["head", "args", "π"]
  | tally => ["derivations", "thunk_calls"]
  | checkRun => ["name", "strict", "trace", "results"]
  | _ => []

/-- The parts that a kind itself holds for values that are made without them. -/
def defaults : Kind → List (String × Value)
  | procedure | application => [("π", outermost)]
  | tally => [("derivations", .int 0), ("thunk_calls", .int 0)]
  | checkRun => [("name", .str "checks"), ("strict", .bool true), ("trace", .bool false)]
  | _ => []

/-- The methods of a kind that have plain names. -/
def methods : Kind → List (String × Method)
  | environment => [("_is_global", .isGlobal), ("_get_binding_val", .bindingValue)]
  | checkRun => [("assert_eq", .assertEq), ("summary", .summary)]
  | _ => []

/-- Parts that are computed when they are asked for, as the kind itself shows them. -/
def computed : Kind → List (String × Value)
  | checkRun => ["passed", "failed", "ok"].map (·, .inert "property")
  | thunk => [("generator", .inert "member_descriptor")]
  | _ => []

def isUnhashable : Kind → Bool
  | list | dict | array | procedure | var | application | tally | checkRun => true
  | _ => false

def textOrNothing (s : Option String) : Value := (s.map Value.str).getD .none

/-- What a kind and its values have in common, by reserved names. -/
def common? (k : Kind) (name : String) : Option Value :=
  match name with
  | "__doc__" => some (textOrNothing k.doc?)
  | "__module__" => if k.isHosted then some (.str k.home) else Option.none
  | "__hash__" => if k.isUnhashable then some .none else Option.none
  | "__match_args__" =>
      if k.isRecord then some (.tuple 0 (k.fields.map .str)) else Option.none
  | "__dataclass_fields__" | "__annotations__" =>
      if k.isRecord then some (.inert "dict") else Option.none
  | "__slots__" => if k = thunk then some (.list 0 [.str "generator"]) else Option.none
  | _ => Option.none

/-- What a kind has under a name. -/
def attribute? (k : Kind) (name : String) : Option Value :=
  match name with
  | "__name__" | "__qualname__" => some (.str k.name)
  | "__module__" => some (.str k.home)
  | "__class__" => some (.kind .kind)
  | "__dict__" => some (.inert "mappingproxy")
  | name =>
      (k.common? name).or <| (k.defaults.lookup name).or <| (k.computed.lookup name).or <|
        ((k.methods.lookup name).map (.member k)).or <|
          if k.hasMember name then some (.member k (.special name))
          else if kind.hasMember name then some (.method 0 (.kind k) (.special name))
          else Option.none

end Kind

namespace Store

/-- The parts of a manager, which it gives up when it is entered. -/
def managerParts (s : Store) (mark : Nat) (limit : Value) : List (String × Value) :=
  let kept : List (String × Value) :=
    [("gen", .inert "generator"), ("__doc__", Kind.textOrNothing Builtin.recursionLimit.doc?)]
  match s.entered.lookup mark with
  | some _ => kept
  | none =>
      kept ++ [("args", .tuple 0 [limit]), ("kwds", .dict 0 []), ("func", .builtin .recursionLimit)]

/-- The parts that a value holds, by name. -/
def parts (s : Store) (v : Value) : List (String × Value) :=
  match v with
  | .environment id outer => [("φ", .frame id), ("π", outer)]
  | .procedure _ code env => [("code", code), ("π", env)]
  | .var _ sym => [("sym", sym)]
  | .application _ head args env => [("head", head), ("args", args), ("π", env)]
  | .thunk _ generator => [("generator", generator)]
  | .tally mark d c =>
      let counts := s.counts mark (d, c)
      [("derivations", counts.1), ("thunk_calls", counts.2)]
  | .checkRun _ name strict trace results =>
      [("name", name), ("strict", strict), ("trace", trace), ("results", results)]
  | .manager mark limit => s.managerParts mark limit
  | .range _ start stop step => [("start", .int start), ("stop", .int stop), ("step", .int step)]
  | .array _ _ shape data =>
      [("shape", .tuple 0 (shape.map fun (n : Nat) => .int n)), ("ndim", .int shape.length),
        ("size", .int data.length)]
  | .int i => [("real", .int i), ("imag", .int 0), ("numerator", .int i), ("denominator", .int 1)]
  | .bool b =>
      [("real", .int b.toNat), ("imag", .int 0), ("numerator", .int b.toNat), ("denominator", .int 1)]
  | .float mark x => [("real", .float mark x), ("imag", .float 0 0.0)]
  | _ => []

/-- The function that another one was made of, where it tells. -/
def wrapped? : Value → Option Value
  | .builtin .recursionLimit => some (.builtin .recursionLimit)
  | .limited _ _ func => some func
  | _ => none

/-- What every function shows of itself; the hosted ones show more. -/
def generalNames : List String := ["__name__", "__qualname__", "__doc__", "__module__"]

/-- What a function shows of itself under a name. -/
def functionAttribute? (s : Store) (f : Value) (name : String) : Option Value :=
  (f.card? s.frame).bind fun card =>
    if f.kind? = some .general ∨ f.kind? = some .slot then
      if generalNames.contains name then card.get? name else none
    else
      match name with
      | "__wrapped__" => wrapped? f
      | "__dict__" => some (.dict 0 ((wrapped? f).map fun v => (.str "__wrapped__", v)).toList)
      | name => card.get? name

/-- What a method shows of itself: its owner, its function, and what the function shows. -/
def methodAttribute? (s : Store) (owner : Value) (m : Method) (name : String) : Option Value :=
  let k := owner.kind?.getD .function
  match name with
  | "__self__" => some owner
  | "__func__" => if m.isOwn k then some (.member k m) else none
  | "__class__" => some (.kind (m.kind k))
  | name => s.functionAttribute? (.method 0 owner m) name

/-- What a value has by its kind. -/
def kindPart? (s : Store) (v : Value) (name : String) : Option Value :=
  v.kind?.bind fun k =>
    let special := if k.hasMember name then some (.method 0 v (.special name)) else none
    match name with
    | "__class__" => some (.kind k)
    | "__dict__" =>
        if k.isRecord || k == .manager then
          some (.dict 0 ((s.parts v).map fun (name, part) => (.str name, part)))
        else none
    | "__weakref__" => if k.isHosted && k != .thunk then some .none else none
    | name => (k.common? name).or (((k.methods.lookup name).map (.method 0 v)).or special)

/-- The attribute of a name that a value was given. -/
def given? (s : Store) (v : Value) (name : String) : Option Value :=
  v.holder?.bind fun holder => s.given.lookup (holder, name)

/-- What a value has under a name from the start, apart from what is computed. -/
def ownAttribute? (s : Store) (v : Value) (name : String) : Option Value :=
  match v with
  | .kind k => k.attribute? name
  | .frame id => frameValue? s.frame id name
  | .method _ owner m => (s.methodAttribute? owner m name).or (s.kindPart? v name)
  | v =>
      ((s.parts v).lookup name).or ((s.functionAttribute? v name).or (s.kindPart? v name))

/-- What a value has under a name, apart from what is computed. -/
def attribute? (s : Store) (v : Value) (name : String) : Option Value :=
  (s.given? v name).or (s.ownAttribute? v name)

end Store

namespace Run

/-- What a check run computes of its entries. -/
def computed? (results : Value) : String → Option (Run Value)
  | "passed" => some (count true results)
  | "failed" => some (count false results)
  | "ok" => some do binary .equal (← count false results) (.int 0)
  | _ => none

/-- The value of a name that a value does not have itself. -/
def missing (v : Value) (name : String) : Run Value :=
  match v with
  | .environment .. =>
      if name.startsWith "__" then fault (.access (.hidden name)) else lookup v name
  | .checkRun _ _ _ _ results => (computed? results name).getD (fault (v.lacks name))
  | v => fault (v.lacks name)

/-- `o.name` -/
def getAttribute (o : Value) (name : String) : Run Value := do
  match (← get).attribute? o name with
  | some v => do
      if name = "__dict__" then modify (·.share v)
      marked v
  | none => missing o name

/-- Gives a value an attribute of its own. -/
def give (o : Value) (name : String) (v : Value) : Run Unit :=
  match o.holder? with
  | some holder => modify fun s => { s with given := s.given.assign (holder, name) v }
  | none => fault (o.lacks name)

/-- Gives a value an attribute: a tally counts on, a frame is bound, a kind or an environment keeps
what it is given. -/
def setAttribute (o : Value) (name : String) (v : Value) : Run Unit :=
  match o with
  | .tally mark d c => modify fun s =>
      let (derivations, thunkCalls) := s.counts mark (d, c)
      let counts := if name = "derivations" then (v, thunkCalls) else (derivations, v)
      { s with tallies := s.tallies.assign mark counts }
  | .frame id => bind id name v
  | o => give o name v

/-- Whether a value has an attribute: only a fault of access means that it has not. -/
def hasAttribute (o : Value) (name : String) : Run Bool :=
  recover (do discard (getAttribute o name); return true) fun f =>
    match f with
    | .access _ => return false
    | f => fault f

end Run

end Knot
