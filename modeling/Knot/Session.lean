import Knot.Evaluate

/-!
Sessions: one step after another over one store. A session starts with the two fixed-point
combinators bound in the outermost environment; a step that fails leaves what it changed, and the
next one goes on from there.
-/

namespace Knot.Session

/-- The body of a combinator in the outermost environment. -/
def bodyHeader : Header :=
  { name := "<lambda>", path := "<lambda>", params := ["πd"], plain := false,
    home := Builtin.lambda.home }

/-- A combinator bound in the outermost environment; its parts get four marks from `mark` on. -/
def combinator (mark : Nat) (body : Term) : Value :=
  let code : List (Value × Value) :=
    [(.str "body", .closure mark bodyHeader body []),
      (.str "parameters", .list (mark + 1) [.str "d"])]
  .procedure (mark + 2) (.dict (mark + 3) code) outermost

def outermostFrame : Frame :=
  { bindings := [("Υ", combinator 1 Prelude.thunkedBody), ("Υ1", combinator 5 Prelude.directBody)],
    mark := 9 }

/-- The limit that a session starts with. -/
def startLimit : Nat := 20000

/-- How many calls the stack has room for. -/
def room : Nat := 10000

/-- The calls that are under way before a session's first one. -/
def startDepth : Nat := 16

/-- What made the outermost frame what it is. -/
def startJournal : List Event :=
  outermostFrame.bindings.reverse.map (fun (name, v) => .bound .program 0 name v) ++
    [.opened { mark := outermostFrame.mark }]

def start : Store :=
  { frames := #[outermostFrame], nextMark := 16, journal := startJournal,
    stack := { depth := startDepth, limit := startLimit, room := some room } }

/-- More levels of calls than the stack has room for. -/
def fuel : Nat := 1000000

/-- Runs a computation as a step of its own: what it prints is kept apart. -/
def step {α : Type} (x : Run α) (s : Store) : Except Stop α × Store :=
  match x { s with out := "" } with
  | .ok a s => (.ok a, s)
  | .error e s => (.error e, s)

/-- Runs a term as a step. -/
def run (t : Term) (s : Store) : Except Stop Value × Store :=
  step (t.eval (Machine.ofFuel fuel) []) s

end Knot.Session
