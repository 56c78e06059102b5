import Knot.Value
import Knot.Text.Quoted

/-!
What can go wrong in a run, by cause. A cause keeps what its message shows as it was shown when the
fault arose, since names and contents may change afterwards.
-/

namespace Knot

/-- Values used as functions, or functions applied, against the rules of the calculus. -/
inductive ContractFault where
  | appliedThunk (positional named : String)
  | generatorReturned (generator result : String)
  | notProcedure (shown typeName : String)
  | wrongCount (given : Nat) (args procedure : String) (expected : Nat) (params : String)
  deriving DecidableEq

inductive NameFault where
  | unbound (shown : String)
  | undefined (name : String)
  deriving DecidableEq

/-- Calls that do not fit the parameters of what is called. -/
inductive ArityFault where
  | counted (name : String) (expected given : Nat)
  | tooMany (path : String) (least most given : Nat)
  | missing (path : String) (names : List String)
  | unexpected (path name : String)
  | repeated (path name : String)
  | exactlyOne (name : String) (given : Nat)
  | noArguments (name : String) (given : Nat)
  | noKeywords (name : String)
  | atMost (name : String) (most given : Nat)
  | invalidKeyword (name keyword : String)
  | givenTwice (name keyword : String) (position : Nat)
  | expectedExactly (name : String) (count given : Nat)
  | expectedAtLeast (name : String) (least given : Nat)
  | expectedAtMost (name : String) (most given : Nat)
  deriving DecidableEq

/-- Values that do not fit the places of a template. -/
inductive TemplateFault where
  | unused
  | tooFew
  | noMapping
  | notNumber (conversion : Char) (typeName : String)
  | notInteger (conversion : Char) (typeName : String)
  | notReal (typeName : String)
  | notCharacter
  | widthNotInteger
  deriving DecidableEq

inductive TypeFault where
  | arity (fault : ArityFault)
  | unsupported (op left right : String)
  | unordered (op left right : String)
  | cannotConcatenate (left right : String)
  | cannotRepeat (typeName : String)
  | notCallable (typeName : String)
  | notIterable (typeName : String)
  | noLength (typeName : String)
  | notScalarIndex
  | notScalar
  | unsized
  | unsizedIteration
  | notSubscriptable (typeName : String)
  | kindNotSubscriptable (name : String)
  | badIndex (container typeName : String)
  | badTextIndex (typeName : String)
  | unhashable (typeName : String)
  | attributeName (typeName : String)
  | reservedAttribute (name kind : String)
  | notInteger (typeName : String)
  | notBound
  | integerArgument (typeName : String)
  | floatArgument (typeName : String)
  | notManager (typeName : String)
  | unknownDType (shown : String)
  | cannotUnpack (typeName : String)
  | notClass (typeName : String)
  | fixedClass
  | lockedClass
  | namespaceType (typeName : String)
  | lockedNamespace
  | typeArguments (kind : String) (given : Nat)
  | notText (name argument typeName : String)
  | decodesText
  | decodesNothing (typeName : String)
  | template (fault : TemplateFault)
  | booleanSubtraction
  | repeatedTexts
  | notElements (op : String)
  deriving DecidableEq

inductive ValueFault where
  | duplicateParameters (params : String)
  | ragged (dimensions : Nat) (shape : String)
  | ambiguousTruth
  | emptyTruth
  | invalidInteger (text : String)
  | invalidFloat (text : String)
  | integerTooLong
  | numeralTooLong (digits : Nat)
  | incompleteTemplate
  | incompleteKey
  | widthTooBig
  | precisionTooBig
  | unknownConversion (shown : Char) (code : String) (position : Nat)
  | nanInteger
  | limitTooSmall
  | textHasNull
  | removesAbsent
  | notInList (shown : String)
  | notInTuple
  | cannotBroadcast (left right : String)
  | zeroStep
  | tooManyToUnpack (expected : Nat)
  | tooFewToUnpack (expected given : Nat)
  deriving DecidableEq

inductive AccessFault where
  | missing (typeName name : String)
  | kindMissing (kind name : String)
  | hidden (name : String)
  | readOnly
  deriving DecidableEq

inductive OverflowFault where
  | tooLargeForLimit
  | tooLargeForFloat
  | tooLargeForWord
  | outOfWord (i : Int) (dtype : String)
  | tooLargeForSize
  | tooLargeForCount
  | textTooLong
  | infiniteInteger
  | notCodePoint
  deriving DecidableEq

inductive IndexFault where
  | outOfRange (container : String)
  | outOfSize
  | popsNothing
  | popsOutside
  | outOfAxis (i : Int) (axis size : Nat)
  | tooManyAxes (axes given : Nat)
  | notIndex
  | notIntegers
  | maskSize (axis size given : Nat)
  deriving DecidableEq

/-- Operations that have no meaning for the element types of grids. -/
inductive GridFault where
  | noLoop (op left right : String)
  | cannotStore (op result target : String)
  deriving DecidableEq

inductive ZeroDivisionFault where
  | integerQuotient | integerRemainder | floatQuotient | floatRemainder
  deriving DecidableEq

inductive Fault where
  | contract (cause : ContractFault)
  | name (cause : NameFault)
  | type (cause : TypeFault)
  | value (cause : ValueFault)
  | access (cause : AccessFault)
  | key (shown : String)
  | index (cause : IndexFault)
  | grid (cause : GridFault)
  | memory
  | overflow (cause : OverflowFault)
  | zeroDivision (cause : ZeroDivisionFault)
  | mismatch (actual expected label : Value) (shown : String)
  | stackExhausted

/-- The name that a program sees when it catches a fault. -/
def Fault.kind : Fault → String
  | contract _ => "ContractViolation"
  | name _ => "NameError"
  | type _ => "TypeError"
  | value _ => "ValueError"
  | access _ => "AttributeError"
  | key _ => "KeyError"
  | index _ => "IndexError"
  | grid _ => "UFuncTypeError"
  | memory => "MemoryError"
  | overflow _ => "OverflowError"
  | zeroDivision _ => "ZeroDivisionError"
  | mismatch .. => "AssertionFailure"
  | stackExhausted => "RecursionError"

def plural (n : Nat) : String := if n = 1 then "" else "s"

def wasWere (n : Nat) : String := if n = 1 then "was" else "were"

/-- Names between quotes, in the manner of a sentence: `'a'`, `'a' and 'b'`, `'a', 'b', and 'c'`. -/
def enumerate (names : List String) : String :=
  match names.map Text.quoted with
  | [] => ""
  | [a] => a
  | [a, b] => a ++ " and " ++ b
  | all => ", ".intercalate all.dropLast ++ ", and " ++ all.getLastD ""

def ContractFault.message : ContractFault → String
  | appliedThunk positional named =>
      s!"Thunk called with arguments {positional} {named}; call it with none to get the fixed point, " ++
        "then apply that, as in self()(n)."
  | generatorReturned generator result =>
      s!"Generator {generator} returned {result}, which is not a function."
  | notProcedure shown typeName => s!"Call to non-function {shown} of type {typeName}."
  | wrongCount given args procedure expected params =>
      s!"Wrong number of arguments, {given} = len({args}), passed to procedure {procedure}, " ++
        s!"which expects {expected} = len({params})."

def NameFault.message : NameFault → String
  | unbound shown => s!"Environment: Name {shown} is unbound."
  | undefined name => s!"name '{name}' is not defined"

def ArityFault.message : ArityFault → String
  | counted name expected given =>
      s!"{name}() takes {expected} arguments but {given} were given"
  | tooMany path least most given =>
      if least = most then
        s!"{path}() takes {most} positional argument{plural most} but {given} {wasWere given} given"
      else
        s!"{path}() takes from {least} to {most} positional arguments but {given} {wasWere given} given"
  | missing path names =>
      s!"{path}() missing {names.length} required positional argument{plural names.length}: " ++
        enumerate names
  | unexpected path name => s!"{path}() got an unexpected keyword argument '{name}'"
  | repeated path name => s!"{path}() got multiple values for argument '{name}'"
  | exactlyOne name given => s!"{name}() takes exactly one argument ({given} given)"
  | noArguments name given => s!"{name}() takes no arguments ({given} given)"
  | noKeywords name => s!"{name}() takes no keyword arguments"
  | atMost name most given => s!"{name}() takes at most {most} arguments ({given} given)"
  | invalidKeyword name keyword => s!"'{keyword}' is an invalid keyword argument for {name}()"
  | givenTwice name keyword position =>
      s!"argument for {name}() given by name ('{keyword}') and position ({position})"
  | expectedExactly name count given => s!"{name} expected {count} argument{plural count}, got {given}"
  | expectedAtLeast name least given =>
      s!"{name} expected at least {least} argument{plural least}, got {given}"
  | expectedAtMost name most given =>
      s!"{name} expected at most {most} argument{plural most}, got {given}"

def TemplateFault.message : TemplateFault → String
  | unused => "not all arguments converted during string formatting"
  | tooFew => "not enough arguments for format string"
  | noMapping => "format requires a mapping"
  | notNumber conversion typeName => s!"%{conversion} format: a real number is required, not {typeName}"
  | notInteger conversion typeName => s!"%{conversion} format: an integer is required, not {typeName}"
  | notReal typeName => s!"must be real number, not {typeName}"
  | notCharacter => "%c requires int or char"
  | widthNotInteger => "* wants int"

def TypeFault.message : TypeFault → String
  | arity fault => fault.message
  | unsupported op left right => s!"unsupported operand type(s) for {op}: '{left}' and '{right}'"
  | unordered op left right =>
      s!"'{op}' not supported between instances of '{left}' and '{right}'"
  | cannotConcatenate left right =>
      s!"can only concatenate {left} (not \"{right}\") to {left}"
  | cannotRepeat typeName => s!"can't multiply sequence by non-int of type '{typeName}'"
  | notCallable typeName => s!"'{typeName}' object is not callable"
  | notIterable typeName => s!"'{typeName}' object is not iterable"
  | noLength typeName => s!"object of type '{typeName}' has no len()"
  | unsized => "len() of unsized object"
  | unsizedIteration => "iteration over a 0-d array"
  | notSubscriptable typeName => s!"'{typeName}' object is not subscriptable"
  | kindNotSubscriptable name => s!"type '{name}' is not subscriptable"
  | badIndex container typeName =>
      s!"{container} indices must be integers or slices, not {typeName}"
  | badTextIndex typeName => s!"string indices must be integers, not '{typeName}'"
  | unhashable typeName => s!"unhashable type: '{typeName}'"
  | attributeName typeName => s!"attribute name must be string, not '{typeName}'"
  | reservedAttribute name kind => s!"{name} must be set to a {kind} object"
  | notInteger typeName => s!"'{typeName}' object cannot be interpreted as an integer"
  | notBound => "slice indices must be integers or have an __index__ method"
  | integerArgument typeName =>
      "int() argument must be a string, a bytes-like object or a real number, " ++
        s!"not '{typeName}'"
  | floatArgument typeName => s!"float() argument must be a string or a real number, not '{typeName}'"
  | notManager typeName => s!"'{typeName}' object does not support the context manager protocol"
  | unknownDType shown => s!"data type {shown} not understood"
  | cannotUnpack typeName => s!"cannot unpack non-iterable {typeName} object"
  | notScalarIndex => "only integer scalar arrays can be converted to a scalar index"
  | notScalar => "only 0-dimensional arrays can be converted to Python scalars"
  | notClass typeName => s!"__class__ must be set to a class, not '{typeName}' object"
  | fixedClass => "__class__ assignment only supported for mutable types or ModuleType subclasses"
  | lockedClass => "can't delete __class__ attribute"
  | namespaceType typeName => s!"__dict__ must be set to a dictionary, not a '{typeName}'"
  | lockedNamespace => "cannot delete __dict__"
  | typeArguments kind given =>
      let amount := if given = 0 then "few" else "many"
      s!"Too {amount} arguments for {kind}; actual {given}, expected 1"
  | notText name argument typeName => s!"{name}() argument '{argument}' must be str, not {typeName}"
  | decodesText => "decoding str is not supported"
  | decodesNothing typeName => s!"decoding to str: need a bytes-like object, {typeName} found"
  | template fault => fault.message
  | booleanSubtraction =>
      "numpy boolean subtract, the `-` operator, is not supported, use the bitwise_xor, the `^` " ++
        "operator, or the logical_xor function instead."
  | notElements op =>
      s!"ufunc '{op}' not supported for the input types, and the inputs could not be safely coerced " ++
        "to any supported types according to the casting rule ''safe''"
  | repeatedTexts =>
      "The 'out' kwarg is necessary when using the string multiply ufunc directly. Use " ++
        "numpy.strings.multiply to multiply strings without specifying 'out'."

def ValueFault.message : ValueFault → String
  | duplicateParameters params =>
      s!"Procedure: parameters {params} must not contain duplicate symbols."
  | ragged dimensions shape =>
      "setting an array element with a sequence. The requested array has an inhomogeneous shape " ++
        s!"after {dimensions} dimensions. The detected shape was {shape} + inhomogeneous part."
  | ambiguousTruth =>
      "The truth value of an array with more than one element is ambiguous. Use a.any() or a.all()"
  | emptyTruth =>
      "The truth value of an empty array is ambiguous. Use `array.size > 0` to check that an array " ++
        "is not empty."
  | invalidInteger text => s!"invalid literal for int() with base 10: {text}"
  | invalidFloat text => s!"could not convert string to float: {text}"
  | integerTooLong =>
      "Exceeds the limit (4300 digits) for integer string conversion; use " ++
        "sys.set_int_max_str_digits() to increase the limit"
  | numeralTooLong digits =>
      s!"Exceeds the limit (4300 digits) for integer string conversion: value has {digits} digits; " ++
        "use sys.set_int_max_str_digits() to increase the limit"
  | incompleteTemplate => "incomplete format"
  | incompleteKey => "incomplete format key"
  | widthTooBig => "width too big"
  | precisionTooBig => "precision too big"
  | unknownConversion shown code position =>
      s!"unsupported format character '{shown}' (0x{code}) at index {position}"
  | nanInteger => "cannot convert float NaN to integer"
  | limitTooSmall => "recursion limit must be greater or equal than 1"
  | textHasNull => "embedded null character"
  | removesAbsent => "list.remove(x): x not in list"
  | notInList shown => s!"{shown} is not in list"
  | notInTuple => "tuple.index(x): x not in tuple"
  | cannotBroadcast left right =>
      s!"operands could not be broadcast together with shapes {left} {right} "
  | zeroStep => "range() arg 3 must not be zero"
  | tooManyToUnpack expected => s!"too many values to unpack (expected {expected})"
  | tooFewToUnpack expected given =>
      s!"not enough values to unpack (expected {expected}, got {given})"

def AccessFault.message : AccessFault → String
  | missing typeName name => s!"'{typeName}' object has no attribute '{name}'"
  | kindMissing kind name => s!"type object '{kind}' has no attribute '{name}'"
  | hidden name => name
  | readOnly => "readonly attribute"

def OverflowFault.message : OverflowFault → String
  | tooLargeForLimit => "Python int too large to convert to C int"
  | tooLargeForFloat => "int too large to convert to float"
  | tooLargeForWord => "Python int too large to convert to C long"
  | outOfWord i dtype => s!"Python integer {i} out of bounds for {dtype}"
  | tooLargeForSize => "Python int too large to convert to C ssize_t"
  | tooLargeForCount => "cannot fit 'int' into an index-sized integer"
  | textTooLong => "repeated string is too long"
  | notCodePoint => "%c arg not in range(0x110000)"
  | infiniteInteger => "cannot convert float infinity to integer"

def ZeroDivisionFault.message : ZeroDivisionFault → String
  | integerQuotient => "integer division or modulo by zero"
  | integerRemainder => "integer modulo by zero"
  | floatQuotient => "float floor division by zero"
  | floatRemainder => "float modulo"

def IndexFault.message : IndexFault → String
  | outOfRange container => s!"{container} index out of range"
  | outOfSize => "cannot fit 'int' into an index-sized integer"
  | popsNothing => "pop from empty list"
  | popsOutside => "pop index out of range"
  | outOfAxis i axis size => s!"index {i} is out of bounds for axis {axis} with size {size}"
  | tooManyAxes axes given =>
      s!"too many indices for array: array is {axes}-dimensional, but {given} were indexed"
  | notIndex =>
      "only integers, slices (`:`), ellipsis (`...`), numpy.newaxis (`None`) and integer or boolean " ++
        "arrays are valid indices"
  | notIntegers => "arrays used as indices must be of integer (or boolean) type"
  | maskSize axis size given =>
      s!"boolean index did not match indexed array along axis {axis}; size of axis is {size} but " ++
        s!"size of corresponding boolean axis is {given}"

def GridFault.message : GridFault → String
  | noLoop op left right =>
      s!"ufunc '{op}' did not contain a loop with signature matching types ({left}, {right}) -> None"
  | cannotStore op result target =>
      s!"Cannot cast ufunc '{op}' output from dtype('{result}') to dtype('{target}') with casting " ++
        "rule 'same_kind'"

/-- What a fault says; an exhausted stack says nothing. -/
def Fault.message : Fault → String
  | contract cause => cause.message
  | name cause => cause.message
  | type cause => cause.message
  | value cause => cause.message
  | access cause => cause.message
  | key shown => shown
  | index cause => cause.message
  | grid cause => cause.message
  | memory => ""
  | overflow cause => cause.message
  | zeroDivision cause => cause.message
  | mismatch _ _ _ shown => shown
  | stackExhausted => ""

end Knot
