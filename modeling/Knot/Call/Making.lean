import Knot.Calculus
import Knot.Signature

/-!
Calling kinds, which makes values: what it takes to make a value of each kind, and the parts that it
has by default.
-/

namespace Knot

open Run Signature

namespace Kind

/-- What it takes to make a value of a kind; none where programs cannot make one by calling the
kind. -/
def signature? (k : Kind) : Option Signature :=
  let of (params : List Parameter) : Option Signature := some ⟨k.name ++ ".__init__", params, true⟩
  match k with
  | thunk => of (required ["generator"])
  | checkRun => of (defaulted ["name", "strict", "trace", "results"])
  | tally => of (defaulted ["derivations", "thunk_calls"])
  | procedure => of (required ["code"] ++ defaulted ["π"])
  | var => of (required ["sym"])
  | application => of (required ["head"] ++ defaulted ["args", "π"])
  | _ => Option.none

/-- A list that a call may leave out: each value has a list of its own then. -/
def listed (v : Option Value) : Run Value :=
  match v with
  | some v => pure v
  | Option.none => Run.list []

/-- A new value of a kind, of the values of its parameters; what is left out has a default. -/
def make (k : Kind) (values : List (Option Value)) : Run Value :=
  let opt (i : Nat) : Option Value := (values[i]?).join
  let val (i : Nat) : Value :=
    (opt i).getD (((k.fields[i]?).bind (k.defaults.lookup ·)).getD .none)
  match k with
  | thunk => return .thunk (← fresh) (val 0)
  | checkRun => do
      let results ← listed (opt 3)
      return .checkRun (← fresh) (val 0) (val 1) (val 2) results
  | tally => Run.tally (val 0) (val 1)
  | procedure => Calculus.newProcedure (val 0) (val 1)
  | var => return .var (← fresh) (val 0)
  | application => do
      let args ← listed (opt 1)
      return .application (← fresh) (val 0) args (val 2)
  | _ => return .none

/-! Texts of values. -/

def textParameters : List String := ["object", "encoding", "errors"]

/-- The fault of a named argument of a text. -/
def textNamedFault? (given : Nat) (keyword : String) : Option ArityFault :=
  match textParameters.findIdx? (· = keyword) with
  | Option.none => some (.invalidKeyword str.name keyword)
  | some i => if i < given then some (.givenTwice str.name keyword (i + 1)) else Option.none

/-- A parameter of a text that has to be a text itself, without the null character. -/
def textual (name : String) (v : Option Value) : Except Fault Unit :=
  match v with
  | some (.str s) => if s.contains '\x00' then .error (.value .textHasNull) else .ok ()
  | some .none => .error (.type (.notText str.name name "None"))
  | some v => .error (.type (.notText str.name name v.operandName))
  | Option.none => .ok ()

def textArguments (args : List Value) (named : Named) : Except Fault (List (Option Value)) := do
  let given := args.length + named.length
  if textParameters.length < given then
    throw (arity (.atMost str.name textParameters.length given))
  match named.findSome? fun (name, _) => textNamedFault? args.length name with
  | some fault => throw (arity fault)
  | Option.none =>
      let values := assign (defaulted textParameters) args named
      textual "encoding" (values[1]?).join
      textual "errors" (values[2]?).join
      return values

/-- The text of a value. Only bytes could be decoded, and there are none. -/
def makeText (values : List (Option Value)) : Run Value := do
  match values with
  | [Option.none, _, _] => return .str ""
  | [some v, Option.none, Option.none] => return .str (← shownPlain v)
  | some (.str _) :: _ => fault (.type .decodesText)
  | some v :: _ => fault (.type (.decodesNothing v.operandName))
  | _ => return .str ""

def call (k : Kind) (args : List Value) (named : Named) : Run Value := do
  match k, k.signature? with
  | str, _ => makeText (← ofExcept (textArguments args named))
  | k, some sig => k.make (← ofExcept (sig.bind args named))
  | _, Option.none => fault (.type (.notCallable kind.name))

end Kind

end Knot
