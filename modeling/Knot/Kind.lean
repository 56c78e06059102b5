/-!
The kinds of values: what each is called, where it is at home, and which members its values have
besides their own parts.
-/

namespace Knot

inductive Kind where
  | none | bool | int | float | str | list | tuple | dict | range | array
  | function | general | method | slot | kind
  | environment | procedure | var | application
  | thunk | tally | checkRun | manager
  deriving DecidableEq, Repr

namespace Kind

def name : Kind → String
  | none => "NoneType"
  | bool => "bool"
  | int => "int"
  | float => "float"
  | str => "str"
  | list => "list"
  | tuple => "tuple"
  | dict => "dict"
  | range => "range"
  | array => "ndarray"
  | function => "function"
  | general => "builtin_function_or_method"
  | method => "method"
  | slot => "method-wrapper"
  | kind => "type"
  | environment => "Environment"
  | procedure => "Procedure"
  | var => "Var"
  | application => "Application"
  | thunk => "Thunk"
  | tally => "ThunkTally"
  | checkRun => "CheckRun"
  | manager => "_GeneratorContextManager"

/-- The module that a kind comes from. -/
def home : Kind → String
  | environment | procedure | var | application => "schemulator"
  | thunk => "fixpoint"
  | tally | checkRun => "harness"
  | array => "numpy"
  | manager => "contextlib"
  | _ => "builtins"

/-- The name with the home, which goes without saying for the general kinds. -/
def path (k : Kind) : String := if k.home = "builtins" then k.name else k.home ++ "." ++ k.name

def text (k : Kind) : String := "<class '" ++ k.path ++ "'>"

/-- The kind's name in messages: an array's tells its home. -/
def operandName : Kind → String
  | array => array.path
  | k => k.name

/-- The kinds that programs can name. -/
def named : List (String × Kind) := [
  ("Thunk", thunk), ("CheckRun", checkRun), ("ThunkTally", tally), ("Procedure", procedure),
  ("Var", var), ("Application", application), ("Ξ", application), ("str", str)]

def ofName? (name : String) : Option Kind := named.lookup name

/-- Whether values of a kind are made of named fields, shown and compared field by field. -/
def isRecord : Kind → Bool
  | environment | procedure | var | application | tally | checkRun => true
  | _ => false

/-! Members that values have by their kind. -/

def commonMembers : List String := [
  "__delattr__", "__dir__", "__eq__", "__format__", "__ge__", "__getattribute__", "__getstate__",
  "__gt__", "__hash__", "__init__", "__init_subclass__", "__le__", "__lt__", "__ne__", "__new__",
  "__reduce__", "__reduce_ex__", "__repr__", "__setattr__", "__sizeof__", "__str__",
  "__subclasshook__"]

def numberMembers : List String := [
  "__abs__", "__add__", "__bool__", "__ceil__", "__divmod__", "__float__", "__floor__",
  "__floordiv__", "__getnewargs__", "__int__", "__mod__", "__mul__", "__neg__", "__pos__",
  "__pow__", "__radd__", "__rdivmod__", "__rfloordiv__", "__rmod__", "__rmul__", "__round__",
  "__rpow__", "__rsub__", "__rtruediv__", "__sub__", "__truediv__", "__trunc__"]

def integerMembers : List String := numberMembers ++ [
  "__and__", "__index__", "__invert__", "__lshift__", "__or__", "__rand__", "__rlshift__",
  "__ror__", "__rrshift__", "__rshift__", "__rxor__", "__xor__"]

def sequenceMembers : List String := ["__contains__", "__getitem__", "__iter__", "__len__"]

def members : Kind → List String
  | none => ["__bool__"]
  | bool | int => integerMembers
  | float => numberMembers
  | str =>
      sequenceMembers ++ ["__add__", "__getnewargs__", "__mod__", "__mul__", "__rmod__", "__rmul__"]
  | list =>
      sequenceMembers ++ ["__add__", "__class_getitem__", "__delitem__", "__iadd__", "__imul__",
        "__mul__", "__reversed__", "__rmul__", "__setitem__"]
  | tuple =>
      sequenceMembers ++ ["__add__", "__class_getitem__", "__getnewargs__", "__mul__", "__rmul__"]
  | dict =>
      sequenceMembers ++ ["__class_getitem__", "__delitem__", "__ior__", "__or__", "__reversed__",
        "__ror__", "__setitem__"]
  | range => sequenceMembers ++ ["__bool__", "__reversed__"]
  | array =>
      numberMembers ++ sequenceMembers ++ ["__array__", "__index__", "__setitem__", "__delitem__"]
  | function => ["__call__", "__get__"]
  | general | method | slot => ["__call__"]
  | kind =>
      ["__call__", "__instancecheck__", "__or__", "__prepare__", "__ror__", "__subclasscheck__",
        "__subclasses__"]
  | environment => ["__getattr__", "__getitem__"]
  | procedure | application => ["__call__"]
  | thunk => ["__call__", "__class_getitem__"]
  | checkRun => ["__enter__", "__exit__"]
  | manager => ["__call__", "__class_getitem__", "__enter__", "__exit__"]
  | var | tally => []

/-- The members that have plain names. -/
def plainMembers : Kind → List String
  | bool | int =>
      ["as_integer_ratio", "bit_count", "bit_length", "conjugate", "from_bytes", "to_bytes"]
  | float => ["as_integer_ratio", "conjugate", "fromhex", "hex", "is_integer"]
  | str => [
      "capitalize", "casefold", "center", "count", "encode", "endswith", "expandtabs", "find",
      "format", "format_map", "index", "isalnum", "isalpha", "isascii", "isdecimal", "isdigit",
      "isidentifier", "islower", "isnumeric", "isprintable", "isspace", "istitle", "isupper", "join",
      "ljust", "lower", "lstrip", "maketrans", "partition", "removeprefix", "removesuffix", "replace",
      "rfind", "rindex", "rjust", "rpartition", "rsplit", "rstrip", "split", "splitlines",
      "startswith", "strip", "swapcase", "title", "translate", "upper", "zfill"]
  | list => [
      "append", "clear", "copy", "count", "extend", "index", "insert", "pop", "remove", "reverse",
      "sort"]
  | tuple | range => ["count", "index"]
  | dict => [
      "clear", "copy", "fromkeys", "get", "items", "keys", "pop", "popitem", "setdefault", "update",
      "values"]
  | array => [
      "all", "any", "argmax", "argmin", "argpartition", "argsort", "astype", "byteswap", "choose",
      "clip", "compress", "conj", "conjugate", "copy", "cumprod", "cumsum", "diagonal", "dot", "dump",
      "dumps", "fill", "flatten", "getfield", "item", "max", "mean", "min", "nonzero", "partition",
      "prod", "put", "ravel", "repeat", "reshape", "resize", "round", "searchsorted", "setfield",
      "setflags", "sort", "squeeze", "std", "sum", "swapaxes", "take", "to_device", "tobytes",
      "tofile", "tolist", "trace", "transpose", "var", "view"]
  | _ => []

/-- Whether values of a kind have a member. -/
def hasMember (k : Kind) (member : String) : Bool :=
  commonMembers.contains member || k.members.contains member || k.plainMembers.contains member

/-- The members that a kind gives a body of its own; the others are the same for all kinds. -/
def ownMembers : Kind → List String
  | environment => ["__init__", "__repr__", "__getattr__", "__getitem__"]
  | procedure | application => ["__init__", "__repr__", "__eq__", "__call__"]
  | var | tally => ["__init__", "__repr__", "__eq__"]
  | checkRun => ["__init__", "__repr__", "__eq__", "__enter__", "__exit__"]
  | thunk => ["__init__", "__repr__", "__call__"]
  | manager => ["__init__", "__call__", "__enter__", "__exit__"]
  | _ => []

end Kind

end Knot
