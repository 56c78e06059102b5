import Knot.Documentation
import Knot.Fault

/-!
Cards: what a function shows of itself under reserved names. Some of them can be set, to values of
their own kinds only.
-/

namespace Knot

structure Card where
  name : Value := .str "<lambda>"
  path : Value := .str "<lambda>"
  doc : Value := .none
  home : Value := .str "schemulator"
  defaults : Value := .none
  namedDefaults : Value := .none
  annotations : Value := .dict 0 []

namespace Card

def get? (card : Card) : String → Option Value
  | "__name__" => some card.name
  | "__qualname__" => some card.path
  | "__doc__" => some card.doc
  | "__module__" => some card.home
  | "__defaults__" => some card.defaults
  | "__kwdefaults__" => some card.namedDefaults
  | "__annotations__" => some card.annotations
  | "__closure__" => some .none
  | "__code__" => some (.inert "code")
  | "__globals__" | "__builtins__" => some (.inert "dict")
  | "__class__" => some (.kind .function)
  | _ => none

def pathText (card : Card) : String :=
  match card.path with
  | .str s => s
  | _ => ""

def nameText (card : Card) : String :=
  match card.name with
  | .str s => s
  | _ => ""

def reserved (name kind : String) : Except Fault Card :=
  .error (.type (.reservedAttribute name kind))

/-- The card with a reserved name set; none where the name is not reserved. -/
def set? (card : Card) (name : String) (v : Value) : Option (Except Fault Card) :=
  match name, v with
  | "__name__", .str _ => some (.ok { card with name := v })
  | "__name__", _ => some (reserved name "string")
  | "__qualname__", .str _ => some (.ok { card with path := v })
  | "__qualname__", _ => some (reserved name "string")
  | "__doc__", _ => some (.ok { card with doc := v })
  | "__module__", _ => some (.ok { card with home := v })
  | "__defaults__", .none | "__defaults__", .tuple .. => some (.ok { card with defaults := v })
  | "__defaults__", _ => some (reserved name "tuple")
  | "__kwdefaults__", .none | "__kwdefaults__", .dict .. => some (.ok { card with namedDefaults := v })
  | "__kwdefaults__", _ => some (reserved name "dict")
  | "__annotations__", .none => some (.ok { card with annotations := .dict 0 [] })
  | "__annotations__", .dict .. => some (.ok { card with annotations := v })
  | "__annotations__", _ => some (reserved name "dict")
  | "__code__", _ => some (reserved name "code")
  | "__closure__", _ | "__globals__", _ | "__builtins__", _ => some (.error (.access .readOnly))
  | "__class__", .kind _ => some (.error (.type .fixedClass))
  | "__class__", v => some (.error (.type (.notClass v.typeName)))
  | _, _ => none

/-- The card with a reserved name taken out, which leaves nothing under it. -/
def unset? (card : Card) (name : String) : Option (Except Fault Card) :=
  match name with
  | "__name__" | "__qualname__" => some (reserved name "string")
  | "__code__" => some (reserved name "code")
  | "__class__" => some (.error (.type .lockedClass))
  | name => card.set? name .none

end Card

end Knot
