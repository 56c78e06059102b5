import Knot.Calculus
import Knot.Ceiling
import Knot.FixedPoint
import Knot.Prelude
import Knot.Signature

/-!
Calling built-in functions: what each of them expects and does.
-/

namespace Knot

open Run Signature

namespace Builtin

/-- How often `forever` was unfolded before the stack was full, as a report. -/
def exhaustionReport (derivations : Value) : Run Value := do
  let n ← shownPlain derivations
  return .str ("RecursionError after " ++ n ++ " derivations")

/-- A function that unfolds itself and never reaches a base case. -/
def forever : Term :=
  Prelude.nameless blownStack.home blownStack.name 2 ["i"]
    (.binary .mul (.var "i") (.app (.app (.var "self") []) [.binary .sub (.var "i") (.num 1)]))

/-- The generator of a function without a base case. -/
def endless : Header :=
  { name := "<lambda>", path := "blown_stack.<locals>.<lambda>", params := ["self"], plain := false,
    home := blownStack.home }

/-- Runs a block under the limit of a manager. -/
def under (manager : Value) (block : Run Value) : Run Value :=
  match manager with
  | .manager mark limit => underLimit mark limit block
  | v => fault (.type (.notManager v.operandName))

/-- Unfolds a generator without a base case under a ceiling, and reports how that ended. -/
def blowStack (k : Machine) (frames : Value) : Run Value := do
  let tally ← tally (.int 0) (.int 0)
  let generator ← FixedPoint.counting (.closure (← fresh) endless forever []) tally
  let unfold ← FixedPoint.build k generator
  recover
    (do
      discard (under (← headroom frames) (k.app unfold [.int 1]))
      fault (← mismatch .none (.str "RecursionError") (.str "no base case")))
    fun f =>
      match f with
      | .stackExhausted => do exhaustionReport (← getAttribute tally "derivations")
      | f => fault f

/-- What a built-in function expects. -/
def signature (b : Builtin) : Signature :=
  let of (params : List Parameter) : Signature := ⟨b.name, params, false⟩
  match b with
  | fixedPoint => of (required ["generator"])
  | asGenerator => of (required ["d"])
  | assertEq => of (required ["actual", "expected"] ++ defaulted ["label"])
  | counting => of (required ["generator", "tally"])
  | recursionLimit => of (required ["limit"])
  | recursionHeadroom => of (required ["frames"])
  | tabulate => of (required ["fixed_point", "ns"])
  | echo => of (required ["key", "x"])
  | lambda => of (required ["body"] ++ defaulted ["parameters", "π"])
  | eval => of (required ["expr"] ++ defaulted ["π", "tag"])
  | evalApplication => of (required ["expr"] ++ defaulted ["π"])
  | apply => of (required ["proc"] ++ defaulted ["args", "π"])
  | define => of (required ["sym", "val"] ++ defaulted ["π"])
  | blownStack => of (required ["headroom"])
  | newEnvironment => of (required ["π"])
  | b =>
      match Prelude.definition? b with
      | some (params, _) => of (required params)
      | none => of []

/-- A general function of exactly one value, whose argument has no name. -/
def sole (name : String) (args : List Value) (named : Named) : Except Fault Value :=
  match named, args with
  | _ :: _, _ => .error (arity (.noKeywords name))
  | [], [v] => .ok v
  | [], args => .error (arity (.exactlyOne name args.length))

/-- What a built-in function does with the values of its parameters. -/
def act (k : Machine) (b : Builtin) (values : List (Option Value)) : Run Value :=
  let opt (i : Nat) : Option Value := (values[i]?).join
  let val (i : Nat) : Value := (opt i).getD .none
  let env (i : Nat) : Value := (opt i).getD outermost
  match b with
  | fixedPoint => FixedPoint.build k (val 0)
  | asGenerator => FixedPoint.adapter (val 0)
  | assertEq => Run.assertEq (val 0) (val 1) (val 2)
  | counting => FixedPoint.counting (val 0) (val 1)
  | stackDepth => Run.stackDepth
  | recursionLimit => manager (val 0)
  | recursionHeadroom => headroom (val 0)
  | tabulate => Calculus.mapGrid (fun v => do
      k.app (val 0) [.int (← ofExcept (Grid.toInteger v))]) (val 1)
  | echo => Run.echo (val 0) (val 1)
  | lambda => Calculus.lambda (val 0) (val 1) (env 2)
  | eval => Calculus.evalTagged k (val 0) (env 1) (val 2)
  | evalApplication => Calculus.evalApplication k (val 0) (env 1)
  | apply => do
      let args ← match val 1 with
        | .none => list []
        | v => pure v
      Calculus.apply k (val 0) args (env 2)
  | define => Calculus.define (val 0) (val 1) (env 2)
  | blownStack => blowStack k (val 0)
  | newEnvironment => Run.newEnvironment "<lambda>" b.home (val 0)
  | _ => return .none

def call (k : Machine) (b : Builtin) (args : List Value) (named : Named) : Run Value :=
  match b with
  | callable => do return .bool (← ofExcept (sole b.name args named)).isCallable
  | repr => do return .str (← shown (← ofExcept (sole b.name args named)))
  | len => do return .int (← Run.length (← ofExcept (sole b.name args named)))
  | getRecursionLimit =>
      match args, named with
      | [], [] => Run.recursionLimit
      | args, [] => fault (arity (.noArguments ("sys." ++ b.name) args.length))
      | _, _ => fault (arity (.noKeywords ("sys." ++ b.name)))
  | b => do act k b (← ofExcept (b.signature.bind args named))

end Builtin

end Knot
