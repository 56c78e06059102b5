import Knot.Equality
import Knot.Function
import Knot.Grid.Text
import Knot.Order

/-!
The text of a value. An environment shows the names of its frames, from its own to the outermost; a
procedure shows its parameters and where it is closed. Where a value lies in memory is not modelled:
addresses are written as zeros of their usual width.
-/

namespace Knot

def addressText : String := "0x000000000000"

/-- The last digits of an address. -/
def fragmentText : String := "0000"

def functionText (path : String) : String := s!"<function {path} at {addressText}>"

/-- The text of a built-in function. -/
def Builtin.text (b : Builtin) : String :=
  if b.isGeneral then s!"<built-in function {b.name}>" else functionText b.name

/-- The text of a function that belongs to the values of a kind. -/
def Method.text (k : Kind) (m : Method) : String :=
  if m.isOwn k then functionText (m.path k) else s!"<slot wrapper '{m.name}' of 'object' objects>"

/-- The text of a whole number; one over the limit of digits is not written. -/
def integerText (i : Int) : Except Fault String :=
  if i.natAbs < Nat.pow 10 Text.digitLimit then .ok (toString i) else .error (.value .integerTooLong)

namespace Grid

def dtypeText : DType → String
  | .text width => s!"'<U{width}'"
  | d => dtypeName d

def implied : DType → Bool
  | .bool | .int64 | .float64 => true
  | _ => false

/-- What is written of an element whose own text is `text`. -/
def cellOf (dtype : DType) (text : String) (v : Value) : Cell :=
  match dtype, v with
  | .object, .list .. => .shown s!"list({text})"
  | .object, _ => .shown text
  | _, .bool b => .bool b
  | _, .int i => .int i
  | _, .float _ x => .float (.ofFloat x)
  | _, _ => .shown text

end Grid

namespace Value

/-- The environment that encloses what a value holds. -/
def enclosing (v : Value) : Except Fault Value :=
  match v with
  | environment _ outer => .ok outer
  | procedure _ _ env => .ok env
  | application _ _ _ env => .ok env
  | v =>
      if v.same (kind .procedure) || v.same (kind .application) then .ok outermost
      else .error (v.lacks "π")

def commaJoin (texts : List String) : String := ", ".intercalate texts

def tupleText (texts : List String) : String :=
  match texts with
  | [t] => s!"({t},)"
  | ts => "(" ++ commaJoin ts ++ ")"

def listText (texts : List String) : String := "[" ++ commaJoin texts ++ "]"

def dictText (texts : List (String × String)) : String :=
  "\x7b" ++ commaJoin (texts.map fun (k, v) => k ++ ": " ++ v) ++ "\x7d"

/-- The page that shows the names of a frame. -/
def namesText (names : List String) : String :=
  (Doc.text (listText (names.map Text.quoted))).pretty

/-- Whether a value is closed in an environment inside another one, which it shows; the outermost
one is only named. -/
def isInner (env : Value) : Except Fault Bool := do (← env.enclosing).truth

def outermostName : String := "ΓΠ"

def hasKey (key : String) (entries : List (Value × Value)) : Bool :=
  entries.any fun (k, _) => match k with
    | str k => k == key
    | _ => false

def requireEntry (key : String) (entries : List (Value × Value)) : Except Fault Unit :=
  if hasKey key entries then .ok () else .error (.key (Text.quoted key))

section

variable (frames : Nat → Frame)

mutual

/-- The text of a value; `frames` gives each frame as it shows now. -/
def showWith (v : Value) : Except Fault String :=
  match v with
  | none => .ok "None"
  | bool b => .ok (if b then "True" else "False")
  | int i => integerText i
  | float _ x => .ok (Decimal.floatText x)
  | str s => .ok (Text.quoted s)
  | list _ items => listText <$> showAll items
  | tuple _ items => tupleText <$> showAll items
  | dict _ entries => dictText <$> showEntries entries
  | range _ start stop step => do
      let ends := "range(" ++ (← integerText start) ++ ", " ++ (← integerText stop)
      if step = 1 then return ends ++ ")" else return ends ++ ", " ++ (← integerText step) ++ ")"
  | array _ dtype shape data => do
      let texts ← showAll data
      let cells := List.zipWith (Grid.cellOf dtype) texts data
      return Grid.fullText (Grid.dtypeText dtype) (Grid.implied dtype) shape cells
  | kind k => .ok k.text
  | builtin b => .ok b.text
  | closure _ header _ _ => .ok (functionText header.path)
  | member k m => .ok (m.text k)
  | method _ owner m => do
      let k := owner.kind?.getD .function
      if m.isOwn k then
        let owner ← showWith owner
        return "<bound method " ++ m.path k ++ " of " ++ owner ++ ">"
      else
        let title :=
          if m.kind k = .general then "built-in method " ++ m.name
          else "method-wrapper '" ++ m.name ++ "'"
        return "<" ++ title ++ " of " ++ k.name ++ " object at " ++ addressText ++ ">"
  | frame id => .ok (functionText (frames id).card.pathText)
  | environment id outer => do
      match outer with
      | none => return "(" ++ fragmentText ++ ",ΓΠ) " ++ namesText (frames id).bindings.keys
      | outer =>
          let outer ← showWith outer
          return "(" ++ fragmentText ++ ") " ++ namesText (frames id).bindings.keys ++ ">" ++ outer
  | procedure _ code env =>
      match code with
      | dict _ entries => do
          requireEntry "body" entries
          let params ← showEntry "parameters" entries
          let inner ← isInner env
          let closed ← if inner then showWith env else pure (Text.quoted outermostName)
          let fields : List (String × Doc) := [("'env': ", .atom closed), ("'parms': ", .text params),
            ("'Λ': ", .text fragmentText)]
          let flat := "\x7b" ++ commaJoin (fields.map fun (k, d) => k ++ d.flat) ++ "\x7d"
          return (Doc.mapping flat fields).pretty
      | code => do
          discard (code.lookup frames "body")
          discard (code.lookup frames "parameters")
          throw .stackExhausted
  | var _ sym => do
      let sym ← showWith sym
      return "Var(sym=" ++ sym ++ ")"
  | application _ head args env => do
      let inner ← isInner env
      let head ← showWith head
      let args ← showWith args
      let closed ← if inner then showWith env else pure (Text.quoted outermostName)
      return dictText [("'Ξ'", Text.quoted fragmentText), ("'head'", head), ("'args'", args),
        ("'π'", closed)]
  | thunk _ generator =>
      match generator.ownName? frames with
      | some name => .ok ("Thunk(" ++ name ++ ")")
      | Option.none => do
          let generator ← showPlain generator
          return "Thunk(" ++ generator ++ ")"
  | counted .. => .ok (functionText "counting.<locals>.counted")
  | countedThunk .. => .ok (functionText "counting.<locals>.thunk")
  | v@(limited ..) => .ok (functionText (((v.card? frames).map Card.pathText).getD ""))
  | inert name => .ok s!"<{name} object at {addressText}>"
  | recurring text => .ok text
  | tally _ d c => do
      let d ← showWith d
      let c ← showWith c
      return "ThunkTally(derivations=" ++ d ++ ", thunk_calls=" ++ c ++ ")"
  | checkRun _ name strict trace results => do
      let name ← showWith name
      let strict ← showWith strict
      let trace ← showWith trace
      let results ← showWith results
      return "CheckRun(name=" ++ name ++ ", strict=" ++ strict ++ ", trace=" ++ trace ++
        ", results=" ++ results ++ ")"
  | manager .. => .ok s!"<contextlib._GeneratorContextManager object at {addressText}>"

/-- The text of a value written for a reader: a text as it is, an array between brackets only. -/
def showPlain (v : Value) : Except Fault String :=
  match v with
  | str s => .ok s
  | array _ dtype shape data =>
      match shape, data with
      | [], [element] => showPlain element
      | shape, data => do
          let texts ← showAll data
          return Grid.plainText shape (List.zipWith (Grid.cellOf dtype) texts data)
  | v => showWith v

def showAll (vs : List Value) : Except Fault (List String) :=
  match vs with
  | [] => .ok []
  | v :: rest => do return (← showWith v) :: (← showAll rest)

def showEntries (entries : List (Value × Value)) : Except Fault (List (String × String)) :=
  match entries with
  | [] => .ok []
  | (k, v) :: rest => do return (← showWith k, ← showWith v) :: (← showEntries rest)

/-- The text for a reader of the entry with a key. -/
def showEntry (key : String) (entries : List (Value × Value)) : Except Fault String :=
  match entries with
  | [] => .error (.key (Text.quoted key))
  | (k, v) :: rest =>
      match k with
      | str k => if k = key then showPlain v else showEntry key rest
      | _ => showEntry key rest

end

mutual

/-- The page of a value: entries in order, and a record's fields apart. -/
def docWith (v : Value) : Except Fault Doc :=
  match v with
  | str s => .ok (.text s)
  | list _ items => do
      let docs ← docAll items
      return .list (listText (docs.map Doc.flat)) docs
  | tuple _ items => do
      let docs ← docAll items
      return .tuple (tupleText (docs.map Doc.flat)) docs
  | dict _ entries => do
      let docs := Sorted.sort (fun a b => keyBefore a.1 b.1) (← docEntries entries)
      return .mapping (dictText (docs.map fun (_, k, d) => (k.flat, d.flat)))
        (docs.map fun (_, k, d) => (k.flat ++ ": ", d))
  | v@(var _ sym) => do
      let flat ← showWith frames v
      return .record flat "Var" [("sym=", ← docWith sym)]
  | v@(tally _ d c) => do
      let flat ← showWith frames v
      return .record flat "ThunkTally" [("derivations=", ← docWith d), ("thunk_calls=", ← docWith c)]
  | v@(checkRun _ name strict trace results) => do
      let flat ← showWith frames v
      return .record flat "CheckRun"
        [("name=", ← docWith name), ("strict=", ← docWith strict), ("trace=", ← docWith trace),
          ("results=", ← docWith results)]
  | v => Doc.atom <$> showWith frames v

def docAll (vs : List Value) : Except Fault (List Doc) :=
  match vs with
  | [] => .ok []
  | v :: rest => do return (← docWith v) :: (← docAll rest)

def docEntries (entries : List (Value × Value)) : Except Fault (List (Value × Doc × Doc)) :=
  match entries with
  | [] => .ok []
  | (k, v) :: rest => do return (k, ← docWith k, ← docWith v) :: (← docEntries rest)

end

end

end Value

namespace Run

/-- The text of a value as it shows now. -/
def shown (v : Value) : Run String := fun s => ofExcept ((s.view v).showWith s.frame) s

/-- The text for a reader of a value as it shows now. -/
def shownPlain (v : Value) : Run String := fun s => ofExcept ((s.view v).showPlain s.frame) s

/-- The page of a value as it shows now. -/
def page (v : Value) : Run String := fun s => (ofExcept ((s.view v).docWith s.frame) >>= fun d =>
  pure d.pretty) s

end Run

end Knot
