import Knot.Value

/-!
What functions, kinds and methods say of themselves when they are asked for their documentation.
-/

namespace Knot

def Builtin.doc? : Builtin → Option String
  | fixedPoint =>
      some ("I am the fixed-point combinator for eager evaluation. Give me a\n    generator, " ++
        "which takes a Thunk and returns a T -> T, and I'll give\n    you the recursive T " ++
        "-> T.\n    ex: Y(lambda fact:\n          lambda n:\n            1 if n < 1 else n " ++
        "* fact()(n - 1))(5)\n    gives: 120\n    The Thunk recurses through the name Y, " ++
        "not through self-\n    application; evaluating Y(generator) never recurses by " ++
        "itself.")
  | selfApply => some "Square the square root of a T -> T by self-applying it."
  | selfFixedPoint =>
      some ("The self-applicative Y of one parameter, for direct-style domain\n    code d : (T " ++
        "-> T) -> (T -> T). The delay is an eta-expansion of\n    sf(sf) rather than a " ++
        "Thunk, so d sees a plain T -> T.")
  | asGenerator =>
      some ("Adapt direct-style domain code to the Thunk-taking contract, so\n    one " ++
        "definition can drive both Y and yc.")
  | factorialGenerator => some "Apply a Thunk and return an int -> int."
  | factorialCode => some "Apply an int -> int factorial and return an int -> int."
  | echo => some "In any Lisp, this would be a macro!"
  | eval =>
      some ("Python does a lot of this for us. 'Tag' is included to aid\n    debugging.")
  | apply =>
      some ("Bind parameters to args in a fresh environment whose parent is\n    the " ++
        "procedure's own, then run the body there. Args are evaluated\n    in the caller's " ++
        "environment π.")
  | define => some "official Scheme"
  | assertEq =>
      some ("Pass/fail oracle. Returns actual so it can sit inside an\n    expression, like " ++
        "ECHO.")
  | counting =>
      some ("Wrap a generator so the tally sees every derivation and every\n    Thunk call. " ++
        "Results and errors are unchanged: every call goes on\n    to the real Thunk. Pass " ++
        "the wrapped generator to Y;\n    Y hands every re-derivation the wrapped one again.")
  | stackDepth => some "Python frames below the caller."
  | recursionLimit =>
      some ("Impose a recursion-depth ceiling for the duration; restore the\n    old one after, " ++
        "even on RecursionError.")
  | recursionHeadroom =>
      some ("A ceiling 'frames' above wherever the caller stands, so the\n    same test is " ++
        "bounded the same way under any runner.")
  | tabulate =>
      some ("fixed_point over every n. Plain ints and object dtype keep big\n    results exact; " ++
        "numpy.int64 arithmetic would wrap.")
  | untypedFactorial =>
      some ("No definitions at all: the thunked Y and the factorial generator\n    as one pure " ++
        "expression.")
  | schemulatedFactorial =>
      some ("The same generator as a procedure of the closure calculus, fed\n    to the global " ++
        "Υ there.")
  | blownStack =>
      some ("A generator that never reaches a base case, unfolded under a\n    ceiling. Reports " ++
        "how many unfoldings the stack allowed.")
  | callable =>
      some ("Return whether the object is callable (i.e., some kind of function).\n\nNote that " ++
        "classes are callable, as are instances of classes with a\n__call__() method.")
  | repr =>
      some ("Return the canonical string representation of the object.\n\nFor many object types, " ++
        "including most builtins, eval(repr(obj)) == obj.")
  | len => some "Return the number of items in a container."
  | getRecursionLimit =>
      some ("Return the current value of the recursion limit.\n\nThe recursion limit is the maximum " ++
        "depth of the Python interpreter\nstack.  This limit prevents infinite recursion from causing " ++
        "an overflow\nof the C stack and crashing Python.")
  | _ => none

def Kind.doc? : Kind → Option String
  | thunk =>
      some ("Call me to get the recursive function. I am not the recursive\n    function. Every " ++
        "call re-derives the fixed point from the same\n    generator; nothing is cached.")
  | environment =>
      some ("An Environment has a frame ϕ and a pointer π to an enclosing\n    Environment. " ++
        "Bindings in the frame are attributes on the object\n    ϕ, an empty function " ++
        "chosen as a carrier for attributes. Get the\n    value of binding ξ as 'E.ξ' or " ++
        "'E[\"ξ\"]'; lookup walks up the π\n    chain. Set it via 'setattr(E.ϕ, ξ, v)', or " ++
        "DEFINE.")
  | procedure =>
      some ("A body, a list of parameters, and the environment the body\n    closes over. The " ++
        "body is a Python function of one environment, in\n    which the parameters are " ++
        "bound. It has no name for itself.")
  | checkRun =>
      some ("A scoped run of assertions. Not a singleton: make one per run,\n    as in\n\n" ++
        "        with CheckRun('factorial') as run:\n            " ++
        "run.assert_eq(Y(factorial_generator)(5), 120)\n\n    A strict run re-raises every " ++
        "AssertionFailure; a lenient run only\n    records it, and 'ok' tells the caller " ++
        "how it went.")
  | tally => some "How much unfolding a fixed point did."
  | var => some "Var(sym: str)"
  | application =>
      some ("Application(head: Union[str, schemulator.Procedure, ForwardRef('Application')], " ++
        "args: List[Any] = <factory>, π: schemulator.Environment = (0000,ΓΠ) '[]')")
  | manager => some "Helper for @contextmanager decorator."
  | str =>
      some ("str(object='') -> str\nstr(bytes_or_buffer[, encoding[, errors]]) -> str\n\nCreate a new " ++
        "string object from the given object. If encoding or\nerrors is specified, then the object " ++
        "must expose a data buffer\nthat will be decoded using the given encoding and error handler.\n" ++
        "Otherwise, returns the result of object.__str__() (if defined)\nor repr(object).\nencoding " ++
        "defaults to sys.getdefaultencoding().\nerrors defaults to 'strict'.")
  | _ => .none

def Method.doc? (k : Kind) : Method → Option String
  | .bindingValue => some "Walk the sequence of Environments upward."
  | .special "__repr__" =>
      match k with
      | .environment | .procedure | .application | .thunk => some "for the debugger"
      | _ => .none
  | .special "__getattr__" => some "recursive lookup by dot notation"
  | .special "__getitem__" =>
      if k = .environment then some "recursive lookup by bracket notation" else .none
  | _ => .none

end Knot
