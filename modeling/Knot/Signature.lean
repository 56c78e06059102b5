import Knot.Machine

/-!
Matching the arguments of a call with parameters: positional arguments from the left, then named
ones, then the parameters that may be left out.
-/

namespace Knot

structure Parameter where
  name : String
  required : Bool := true
  deriving DecidableEq

/-- What a function expects. A method's receiver is a first parameter that every call has given. -/
structure Signature where
  path : String
  params : List Parameter
  receiver : Bool := false

namespace Signature

def required (names : List String) : List Parameter := names.map ({ name := · })

def defaulted (names : List String) : List Parameter := names.map ({ name := ·, required := false })

def arity (fault : ArityFault) : Fault := .type (.arity fault)

/-- The fault of the first named argument that has no parameter or gives one a second value. -/
def namedFault? (sig : Signature) (positional : Nat) : Named → Option ArityFault
  | [] => none
  | (name, _) :: rest =>
      if sig.receiver ∧ name = "self" then some (.repeated sig.path name)
      else
        match sig.params.findIdx? (·.name = name) with
        | none => some (.unexpected sig.path name)
        | some i =>
            if i < positional then some (.repeated sig.path name)
            else namedFault? sig positional rest

/-- The value of each parameter, or none where a parameter is left out. -/
def assign : List Parameter → List Value → Named → List (Option Value)
  | [], _, _ => []
  | p :: params, [], named => named.lookup p.name :: assign params [] named
  | _ :: params, v :: args, named => some v :: assign params args named

def missing (sig : Signature) (values : List (Option Value)) : List String :=
  (sig.params.zip values).filterMap fun (p, v) =>
    if p.required && v.isNone then some p.name else none

def bind (sig : Signature) (args : List Value) (named : Named) :
    Except Fault (List (Option Value)) :=
  let extra := if sig.receiver then 1 else 0
  match sig.namedFault? args.length named with
  | some fault => .error (arity fault)
  | none =>
      if sig.params.length < args.length then
        .error (arity (.tooMany sig.path ((sig.params.filter (·.required)).length + extra)
          (sig.params.length + extra) (args.length + extra)))
      else
        let values := assign sig.params args named
        match sig.missing values with
        | [] => .ok values
        | names => .error (arity (.missing sig.path names))

/-- The parameters with the receiver as an argument like the others. -/
def unbound (sig : Signature) : Signature :=
  { sig with params := { name := "self" } :: sig.params, receiver := false }

/-- A call with any number of arguments, none of them named. -/
def checkUnnamed (sig : Signature) (named : Named) : Except Fault Unit :=
  match sig.namedFault? 0 named with
  | some fault => .error (arity fault)
  | none => .ok ()

end Signature

/-- The names that a call gives to the arguments of a function. Of two parameters with one name the
last one counts. -/
def Header.bind (header : Header) (args : List Value) (named : Named) :
    Except Fault (List (String × Value)) :=
  if header.plain then
    match named with
    | (name, _) :: _ => .error (Signature.arity (.unexpected header.name name))
    | [] =>
        if args.length = header.params.length then .ok (header.params.zip args).reverse
        else .error (Signature.arity (.counted header.name header.params.length args.length))
  else do
    let values ← (Signature.mk header.path (header.params.map ({ name := · })) false).bind args named
    return header.params.zip (values.map (·.getD .none))

end Knot
