import Knot.Run

/-!
Environments: each has a frame that names are bound in and an environment that encloses it. A name's
value is looked up in the nearest frame that has it, from the environment outwards. A frame is a
function too: what it shows of itself goes before its bindings, and the members that all functions
have come behind them.
-/

namespace Knot

/-- The fault of a value that has no part of a name. -/
def Value.lacks (v : Value) (name : String) : Fault :=
  match v with
  | .kind k => .access (.kindMissing k.name name)
  | v@(.method ..) =>
      .access (.missing (if v.kind? = some .method then Kind.function.name else v.typeName) name)
  | v => .access (.missing v.operandName name)

/-- The outermost environment. -/
def outermost : Value := .environment 0 .none

namespace Frame

/-- What a frame has under a name: something reserved, or else a binding. -/
def get? (frame : Frame) (name : String) : Option Value :=
  if name = "__dict__" then some (.dict frame.mark frame.entries)
  else (frame.card.get? name).or (frame.bindings.lookup name)

/-- The bindings that entries stand for. -/
def bindingsOf (entries : List (Value × Value)) : Bindings String Value :=
  entries.filterMap fun (key, v) =>
    match key with
    | .str name => some (name, v)
    | _ => none

def set (frame : Frame) (name : String) (v : Value) : Except Fault Frame :=
  if name = "__dict__" then
    match v with
    | .dict mark entries => .ok { frame with mark, bindings := bindingsOf entries }
    | v => .error (.type (.namespaceType v.typeName))
  else
    match frame.card.set? name v with
    | some card => (fun card => { frame with card }) <$> card
    | none => .ok { frame with bindings := frame.bindings.assign name v }

/-- The frame without what it has under a name. -/
def unset (frame : Frame) (name : String) : Except Fault Frame :=
  if name = "__dict__" then .error (.type .lockedNamespace)
  else
    match frame.card.unset? name with
    | some card => (fun card => { frame with card }) <$> card
    | none =>
        match frame.bindings.lookup name with
        | some _ => .ok { frame with bindings := frame.bindings.erase name }
        | none => .error (.access (.missing Kind.function.name name))

theorem get?_of_card_none {frame : Frame} {name : String} (ne : name ≠ "__dict__")
    (h : frame.card.get? name = none) : frame.get? name = frame.bindings.lookup name := by
  simp [get?, ne, h]

end Frame

/-- What the frame of a number has under a name, members of functions included. -/
def frameValue? (frames : Nat → Frame) (id : Nat) (name : String) : Option Value :=
  ((frames id).get? name).or
    (if Kind.function.hasMember name then some (.method 0 (.frame id) (.special name)) else none)

/-- The value of a name in the nearest frame that has it. What encloses an environment may be any
value; one without a frame passes the search on to what encloses it. -/
def Value.lookup (frames : Nat → Frame) (name : String) : Value → Except Fault Value
  | .none => .error (.name (.unbound name))
  | .environment id outer =>
      match frameValue? frames id name with
      | some v => .ok v
      | Option.none => lookup frames name outer
  | .procedure _ _ env => lookup frames name env
  | .application _ _ _ env => lookup frames name env
  | .kind .procedure | .kind .application =>
      match frameValue? frames 0 name with
      | some v => .ok v
      | Option.none => .error (.name (.unbound name))
  | v => .error (v.lacks "π")

namespace Store

/-- The store with a frame in place. Frames that share a dictionary of names are bound alike. -/
def setFrame (s : Store) (id : Nat) (frame : Frame) : Store :=
  let frames := s.frames.setIfInBounds id frame
  if (s.namespaces.lookup frame.mark).isNone then { s with frames }
  else
    { s with frames := frames.map fun other =>
        if other.mark == frame.mark then { other with bindings := frame.bindings } else other }

/-- The store with one more event in its journal. -/
def note (s : Store) (e : Event) : Store := { s with journal := e :: s.journal }

/-- Whether the dictionary of a frame's names stands for those of another frame too. -/
def isShared (s : Store) (id : Nat) (frame : Frame) : Bool :=
  (s.namespaces.lookup frame.mark).isSome &&
    (List.range s.frames.size).any fun other => other != id && (s.frame other).mark == frame.mark

/-- The store with a frame in place that an event changed. -/
def change (s : Store) (id : Nat) (frame : Frame) (e : Event) : Store :=
  (s.setFrame id frame).note (if s.isShared id frame then .overwritten id else e)

/-- The store with a frame behind the others. -/
def push (s : Store) (frame : Frame) : Store :=
  { s with
    frames := s.frames.push frame
    nextMark := s.nextMark + 1
    journal := .opened frame :: s.journal }

def lookup (s : Store) (name : String) (env : Value) : Except Fault Value := env.lookup s.frame name

/-- What shows of the code of a procedure: the body and the parameters, where an environment binds
them. -/
def codeShown (s : Store) (inner : Value → Value) (code : Value) : Value :=
  match code with
  | .environment .. =>
      match s.lookup "body" code, s.lookup "parameters" code with
      | .ok body, .ok params => .dict 0 [(.str "body", body), (.str "parameters", inner params)]
      | _, _ => code
  | code => code

/-- How many environments that stand for code one behind the other are followed. -/
def codeHops : Nat := 1000

/-- The value as it shows now. -/
def view (s : Store) (v : Value) : Value :=
  v.withContents (s.contentsNow s.codeShown
    (s.contents.length + s.namespaces.length + s.tables.length + codeHops)) []

/-- The frame of which a dictionary's mark is. -/
def frameOfMark? (s : Store) (mark : Nat) : Option Nat := s.frames.findIdx? (·.mark == mark)

/-- The store in which the dictionary of a mark stands for the names of the frames that have the
mark. -/
def shareMark (s : Store) (mark : Nat) : Store :=
  match s.frameOfMark? mark with
  | some id => { s with namespaces := s.namespaces.assign mark id }
  | none => s

/-- The store in which a dictionary stands for the names of the frames that have its mark. -/
def share (s : Store) (v : Value) : Store :=
  match v with
  | .dict mark _ => s.shareMark mark
  | _ => s

/-- The store with a frame in place whose names another dictionary stands for; the one before keeps
its entries. -/
def replaceNames (s : Store) (id : Nat) (frame : Frame) : Store :=
  let before := s.frame id
  let s := { s with
    tables := s.tables.assign before.mark before.entries
    namespaces := s.namespaces.erase before.mark
    frames := s.frames.setIfInBounds id frame }
  (s.shareMark before.mark).shareMark frame.mark

end Store

namespace Run

/-- The value of a name. The dictionary of a frame's names goes on standing for them. -/
def lookup (env : Value) (name : String) : Run Value := do
  let v ← ofExcept ((← get).lookup name env)
  if name = "__dict__" then modify (·.share v)
  marked v

/-- The frame of an environment. -/
def frameOf (env : Value) : Run Nat :=
  match env with
  | .environment id _ => pure id
  | v => fault (v.lacks "φ")

/-- Binds a name in a frame. -/
def bind (id : Nat) (name : String) (v : Value) : Run Unit := do
  if name = "__dict__" then
    let v ← head v
    let frame ← ofExcept (((← get).frame id).set name v)
    modify fun s => (s.replaceNames id frame).note (.overwritten id)
  else
    let frame ← ofExcept (((← get).frame id).set name v)
    modify fun s => s.change id frame (.bound s.writer id name v)

/-- Runs `x` while a writer binds names. -/
def writing {α : Type} (writer : Writer) (x : Run α) : Run α := fun s =>
  match x { s with writer } with
  | .ok a s' => .ok a { s' with writer := s.writer }
  | .error e s' => .error e { s' with writer := s.writer }

/-- A value used as a name. -/
def nameOf (v : Value) : Run String :=
  match v with
  | .str name => pure name
  | v => fault (.type (.attributeName v.operandName))

/-- Takes a name out of a frame. -/
def unbind (id : Nat) (name : String) : Run Unit := do
  let frame ← ofExcept (((← get).frame id).unset name)
  modify fun s => s.change id frame (.unbound id name)

/-- A new environment with an empty frame. -/
def newEnvironment (path home : String) (outer : Value) : Run Value :=
  modifyGet fun s => (.environment s.frames.size outer,
    s.push { card := { path := .str path, home := .str home }, mark := s.nextMark })

end Run

end Knot
