import Knot.Bindings
import Knot.Card

/-!
The state that a run changes: the frames that environments bind names in, the counts of tallies,
what grown lists hold, the session's own names, the stack, and the text printed.
-/

namespace Knot

/-- What names are bound to, and what the frame shows of itself. The mark is that of the dictionary
that stands for the bindings. -/
structure Frame where
  bindings : Bindings String Value := []
  card : Card := {}
  mark : Nat := 0

def Frame.entries (frame : Frame) : List (Value × Value) :=
  frame.bindings.map fun (name, v) => (.str name, v)

/-- Who gives a name its value: a program that asks for it, or a call that passes an argument. -/
inductive Writer where
  | program | call
  deriving DecidableEq

/-- What is done to the frames of environments. -/
inductive Event where
  /-- A frame is put behind the others. -/
  | opened (frame : Frame)
  | bound (writer : Writer) (id : Nat) (name : String) (v : Value)
  | unbound (id : Nat) (name : String)
  /-- The names of a frame change by way of the dictionary that stands for them. -/
  | overwritten (id : Nat)

/-- What is done with generators, thunks, managers and the stack. -/
inductive Deed where
  /-- The fixed point of a generator is built, and not for a thunk. -/
  | built (generator : Value)
  /-- A thunk is asked for the fixed point of its generator. -/
  | asked (generator : Value)
  /-- A generator that counts on a tally derives its function. -/
  | derived (tally : Value)
  /-- A thunk that counts on a tally passes a call on to the thunk inside, with arguments or plain. -/
  | passed (tally inner : Value) (plain : Bool)
  /-- A manager is entered or left by a call of its method and not by a block. -/
  | steered
  /-- A call is refused because the stack is full. -/
  | refused

/-- How deep calls are nested and how deep they may be: below the limit that is set, and within the
room that there is for them. No room given means that calls are not counted, so nothing bounds them. -/
structure Stack where
  depth : Nat
  limit : Nat
  room : Option Nat

/-- Whether one more call would reach the ceiling. -/
def Stack.full (stack : Stack) : Bool :=
  match stack.room with
  | some room => min room stack.limit ≤ stack.depth
  | none => false

/-- What can be given attributes beside those that it was made with. -/
inductive Holder where
  | kind (k : Kind)
  | environment (id : Nat)
  deriving DecidableEq

def Value.holder? : Value → Option Holder
  | .kind k => some (.kind k)
  | .environment id _ => some (.environment id)
  | _ => Option.none

structure Store where
  frames : Array Frame
  nextMark : Nat
  tallies : Bindings Nat (Value × Value) := []
  /-- What lists and arrays hold that were changed, by their marks. -/
  contents : Bindings Nat (List Value) := []
  /-- What dictionaries hold that were changed, by their marks. -/
  tables : Bindings Nat (List (Value × Value)) := []
  /-- The attributes that were given to kinds and environments. -/
  given : Bindings (Holder × String) Value := []
  /-- The marks of dictionaries that stand for the names of a frame, and the frames. -/
  namespaces : Bindings Nat Nat := []
  /-- The limits that were set before each manager that was entered, by its mark. -/
  entered : Bindings Nat Nat := []
  session : Bindings String Value := []
  stack : Stack
  out : String := ""
  /-- What was done to the frames, the newest first. -/
  journal : List Event := []
  /-- Who binds names now. -/
  writer : Writer := .program
  /-- What was done with generators, thunks, managers and the stack, the newest first. -/
  deeds : List Deed := []

namespace Store

def frame (s : Store) (id : Nat) : Frame := s.frames.getD id {}

/-- The store with one more deed told. -/
def did (s : Store) (d : Deed) : Store := { s with deeds := d :: s.deeds }

/-- The names bound in a frame, in order. -/
def names (s : Store) (id : Nat) : List String := (s.frame id).bindings.keys

/-- What a list holds now: what was recorded for it, or else what it was made with. -/
def items (s : Store) (mark : Nat) (items : List Value) : List Value :=
  (s.contents.lookup mark).getD items

/-- The bindings of a frame as entries. -/
def entries (s : Store) (id : Nat) : List (Value × Value) := (s.frame id).entries

/-- What a tally shows now. -/
def counts (s : Store) (mark : Nat) (initial : Value × Value) : Value × Value :=
  (s.tallies.lookup mark).getD initial

/-- The entries of a dictionary that does not hold what it was made with any more. -/
def table? (s : Store) (mark : Nat) : Option (List (Value × Value)) :=
  match s.namespaces.lookup mark with
  | some id => some (s.entries id)
  | none => s.tables.lookup mark

/-- The value with the members that it has now. -/
def head (s : Store) (v : Value) : Value :=
  match v with
  | .list mark items => .list mark (s.items mark items)
  | .array mark dtype shape data => .array mark dtype shape (s.items mark data)
  | .dict mark entries => .dict mark ((s.table? mark).getD entries)
  | v => v

theorem items_of_contents_nil {s : Store} (h : s.contents = []) (mark : Nat) (items : List Value) :
    s.items mark items = items := by
  simp [Store.items, h]

end Store

/-!
Reading a value as it is now: every list with what it holds, every tally with its counts. A value
inside itself is cut short to a few dots.
-/

/-- What changing values show, by their marks, and what the code of a procedure shows. The marks of
the values around are given too. -/
structure Contents where
  items? : List Nat → Nat → Option (List Value)
  entries? : List Nat → Nat → Option (List (Value × Value))
  counts : Nat → Value × Value → Value × Value
  code : List Nat → Value → Value

/-- Whether a value lies in itself. -/
def lies (around : List Nat) (mark : Nat) : Bool := mark != 0 && around.contains mark

mutual

/-- The value with the contents of changing values replaced; `around` are the marks of the values
that it lies in. -/
def Value.withContents (c : Contents) (around : List Nat) (v : Value) : Value :=
  match v with
  | .list mark items =>
      if lies around mark then .recurring "[...]"
      else
        match c.items? (mark :: around) mark with
        | some items => .list mark items
        | Option.none => .list mark (withContentsAll c (mark :: around) items)
  | .tuple mark items =>
      if lies around mark then .recurring "(...)"
      else .tuple mark (withContentsAll c (mark :: around) items)
  | .dict mark entries =>
      if lies around mark then .recurring "\x7b...\x7d"
      else
        match c.entries? (mark :: around) mark with
        | some entries => .dict mark entries
        | Option.none => .dict mark (withContentsEntries c (mark :: around) entries)
  | .array mark dtype shape data =>
      match c.items? around mark with
      | some data => .array mark dtype shape data
      | Option.none => .array mark dtype shape (withContentsAll c around data)
  | .method mark owner m => .method mark (owner.withContents c around) m
  | .environment id outer => .environment id (outer.withContents c around)
  | .procedure mark code env =>
      .procedure mark (c.code around (code.withContents c around)) (env.withContents c around)
  | .var mark sym =>
      if lies around mark then .recurring "..."
      else .var mark (sym.withContents c (mark :: around))
  | .application mark head args env =>
      .application mark (head.withContents c around) (args.withContents c around)
        (env.withContents c around)
  | .thunk mark generator => .thunk mark (generator.withContents c around)
  | .tally mark derivations thunkCalls =>
      .tally mark (c.counts mark (derivations, thunkCalls)).1
        (c.counts mark (derivations, thunkCalls)).2
  | .checkRun mark name strict trace results =>
      if lies around mark then .recurring "..."
      else
        .checkRun mark (name.withContents c (mark :: around)) (strict.withContents c (mark :: around))
          (trace.withContents c (mark :: around)) (results.withContents c (mark :: around))
  | v => v

def Value.withContentsAll (c : Contents) (around : List Nat) (vs : List Value) : List Value :=
  match vs with
  | [] => []
  | v :: rest => v.withContents c around :: withContentsAll c around rest

def Value.withContentsEntries (c : Contents) (around : List Nat) (entries : List (Value × Value)) :
    List (Value × Value) :=
  match entries with
  | [] => []
  | (k, v) :: rest =>
      (k.withContents c around, v.withContents c around) :: withContentsEntries c around rest

end

namespace Store

/-- What changing values show now, where `code` tells what code shows. A list may hold lists that
changed themselves; `hops` bounds how often that is followed. -/
def contentsNow (s : Store) (code : (Value → Value) → Value → Value) : Nat → Contents
  | 0 => ⟨fun _ _ => none, fun _ _ => none, s.counts, fun _ v => v⟩
  | hops + 1 =>
      let inner (around : List Nat) (v : Value) : Value :=
        v.withContents (s.contentsNow code hops) around
      ⟨fun around mark => (s.contents.lookup mark).map (·.map (inner around)),
        fun around mark => (s.table? mark).map (·.map fun (k, v) => (k, inner around v)),
        s.counts,
        fun around => code (inner around)⟩

/-- The value as it is now. -/
def now (s : Store) (v : Value) : Value :=
  v.withContents
    (s.contentsNow (fun _ v => v) (s.contents.length + s.namespaces.length + s.tables.length)) []

end Store

end Knot
