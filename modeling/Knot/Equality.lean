import Knot.Grid.Operand

/-!
Equality of values. Numbers are equal when they are the same number; containers compare their
members, and a member is equal to itself whatever it is; values of the calculus compare their parts,
except environments, which compare by identity. An array compares element by element, and only an
array of one element can stand for a truth value.
-/

namespace Knot

namespace Value

/-- Whether two progressions have the same members. -/
def rangeEqual (a b : Int × Int × Int) : Bool :=
  let m := rangeLength a.1 a.2.1 a.2.2
  let n := rangeLength b.1 b.2.1 b.2.2
  m == n && (m == 0 || (a.1 == b.1 && (m == 1 || a.2.2 == b.2.2)))

/-- Equality of two members of containers: a member is equal to itself whatever it is. -/
@[macro_inline]
def orSame (a b : Value) (equal : Except Fault Bool) : Except Fault Bool :=
  if same a b then .ok true else equal

section

variable (arrays : Value → Value → Except Fault Bool)

mutual

/-- Equality, where `arrays` compares two values of which one is an array. Two values that both lie
in themselves are compared without end. -/
def equalWith (a b : Value) : Except Fault Bool :=
  match a, b with
  | array .., _ | _, array .. => arrays a b
  | none, none => .ok true
  | recurring _, recurring _ => .error .stackExhausted
  | str s, str t => .ok (s == t)
  | list _ xs, list _ ys => if xs.length = ys.length then membersEqual xs ys else .ok false
  | tuple _ xs, tuple _ ys => membersEqual xs ys
  | dict _ xs, dict _ ys => if xs.length = ys.length then entriesEqual xs ys else .ok false
  | range _ a b c, range _ a' b' c' => .ok (rangeEqual (a, b, c) (a', b', c'))
  | method _ o m, method _ o' m' => .ok (same o o' && m == m')
  | procedure _ code env, procedure _ code' env' => do
      if ← orSame code code' (equalWith code code') then orSame env env' (equalWith env env')
      else return false
  | var _ sym, var _ sym' => orSame sym sym' (equalWith sym sym')
  | application _ head args env, application _ head' args' env' => do
      if ← orSame head head' (equalWith head head') then
        if ← orSame args args' (equalWith args args') then orSame env env' (equalWith env env')
        else return false
      else return false
  | tally _ d c, tally _ d' c' => do
      if ← orSame d d' (equalWith d d') then orSame c c' (equalWith c c') else return false
  | checkRun _ name strict trace results, checkRun _ name' strict' trace' results' => do
      if ← orSame name name' (equalWith name name') then
        if ← orSame strict strict' (equalWith strict strict') then
          if ← orSame trace trace' (equalWith trace trace') then
            orSame results results' (equalWith results results')
          else return false
        else return false
      else return false
  | bool p, b => .ok (match b.number? with
      | some n => Number.equal (.int p.toNat) n
      | Option.none => false)
  | int i, b => .ok (match b.number? with
      | some n => Number.equal (.int i) n
      | Option.none => false)
  | float _ x, b => .ok (match b.number? with
      | some n => Number.equal (.float x) n
      | Option.none => false)
  | a, b => .ok (same a b)

def membersEqual (xs ys : List Value) : Except Fault Bool :=
  match xs, ys with
  | [], [] => .ok true
  | x :: xs, y :: ys => do
      if ← orSame x y (equalWith x y) then membersEqual xs ys else return false
  | _, _ => .ok false

def entriesEqual (xs ys : List (Value × Value)) : Except Fault Bool :=
  match xs with
  | [] => .ok true
  | (k, v) :: xs =>
      match ys.find? fun (k', _) => (orSame k k' (equalWith k k')).toOption == some true with
      | some (_, v') => do
          if ← orSame v v' (equalWith v v') then entriesEqual xs ys else return false
      | Option.none => .ok false

end

def memberEqual (a b : Value) : Except Fault Bool := orSame a b (equalWith arrays a b)

end

mutual

/-- How deep arrays are nested in a value. -/
def arrayDepth : Value → Nat
  | array _ _ _ data => arrayDepths data + 1
  | list _ items | tuple _ items => arrayDepths items
  | dict _ entries => arrayDepthEntries entries
  | procedure _ code env => max code.arrayDepth env.arrayDepth
  | var _ sym => sym.arrayDepth
  | application _ head args env => max head.arrayDepth (max args.arrayDepth env.arrayDepth)
  | tally _ d c => max d.arrayDepth c.arrayDepth
  | checkRun _ name strict trace results =>
      max (max name.arrayDepth strict.arrayDepth) (max trace.arrayDepth results.arrayDepth)
  | _ => 0

def arrayDepths : List Value → Nat
  | [] => 0
  | v :: rest => max v.arrayDepth (arrayDepths rest)

def arrayDepthEntries : List (Value × Value) → Nat
  | [] => 0
  | (k, v) :: rest => max (max k.arrayDepth v.arrayDepth) (arrayDepthEntries rest)

end

end Value

namespace Grid

/-- Equality of two elements of grids. Between a text and a number it fails; a double makes the
other number a double. -/
def elementEqual (equal : Value → Value → Except Fault Bool) (left right : DType) (a b : Value) :
    Except Fault Bool :=
  match left, right with
  | .object, _ | _, .object => equal a b
  | .text _, .text _ => equal a b
  | .text _, _ | _, .text _ => .ok false
  | _, _ =>
      if left = .float64 ∨ right = .float64 then do
        return (← toDouble a) == (← toDouble b)
      else equal a b

/-- The truth of every element's equality, over the shape that both grids are stretched to. -/
def equalities (equal : Value → Value → Except Fault Bool) (a b : Grid) :
    Except Fault (List Nat × List Bool) := do
  let (shape, pairs) ← meeting a b
  let truths ← pairs.mapM fun (x, y) => elementEqual equal a.dtype b.dtype x y
  return (shape, truths)

/-- The truth value of a grid of truth values. -/
def soleTruth : List Bool → Except Fault Bool
  | [b] => .ok b
  | [] => .error (.value .emptyTruth)
  | _ => .error (.value .ambiguousTruth)

/-- Whether two grids have one shape and equal elements everywhere. -/
def equal (equal : Value → Value → Except Fault Bool) (a b : Grid) : Except Fault Bool :=
  if a.shape = b.shape then do
    let (_, truths) ← equalities equal a b
    return truths.all id
  else .ok false

end Grid

namespace Value

/-- Equality of values whose arrays are nested at most `depth` deep. -/
def equalAt : Nat → Value → Value → Except Fault Bool
  | 0 => equalWith fun _ _ => .error (.value .ambiguousTruth)
  | depth + 1 => equalWith fun a b => do
      let (x, y) ← Grid.operands a b
      let (_, truths) ← Grid.equalities (equalAt depth) x.grid y.grid
      Grid.soleTruth truths

/-- Whether two values are equal, as far as that has a truth value. -/
def equal (a b : Value) : Except Fault Bool := equalAt (max a.arrayDepth b.arrayDepth) a b

def equalMember (a b : Value) : Except Fault Bool := if same a b then .ok true else equal a b

/-- The truth value of an element of an array. -/
def elementTruth : Value → Bool
  | list _ items | tuple _ items => !items.isEmpty
  | dict _ entries => !entries.isEmpty
  | v => Grid.elementTruth v

/-- The truth value of a value: nothing, zero and empty containers are false. -/
def truth : Value → Except Fault Bool
  | none => .ok false
  | str s => .ok (!s.isEmpty)
  | list _ items | tuple _ items => .ok (!items.isEmpty)
  | dict _ entries => .ok (!entries.isEmpty)
  | range _ start stop step => .ok (rangeLength start stop step != 0)
  | array _ _ _ [] => .error (.value .emptyTruth)
  | array _ _ _ [v] => .ok v.elementTruth
  | array .. => .error (.value .ambiguousTruth)
  | v => .ok (match v.number? with
      | some n => !n.isZero
      | Option.none => true)

mutual

/-- The type's name of the first part of a value that keeps it from being a key. -/
def unhashable? : Value → Option String
  | tuple _ items => unhashableIn? items
  | list .. => some "list"
  | dict .. => some "dict"
  | array .. => some "numpy.ndarray"
  | procedure .. => some "Procedure"
  | var .. => some "Var"
  | application .. => some "Application"
  | tally .. => some "ThunkTally"
  | checkRun .. => some "CheckRun"
  | _ => Option.none

def unhashableIn? : List Value → Option String
  | [] => Option.none
  | v :: rest => v.unhashable?.or (unhashableIn? rest)

end

/-- Whether two keys are one. -/
def sameKey (a b : Value) : Bool := (equalMember a b).toOption == some true

/-- Entries with a key given a value: a key that is there keeps its place and its first form. -/
def insertEntry (key value : Value) : List (Value × Value) → List (Value × Value)
  | [] => [(key, value)]
  | (k, v) :: rest =>
      if sameKey k key then (k, value) :: rest else (k, v) :: insertEntry key value rest

def checkKey (key : Value) : Except Fault Unit :=
  match key.unhashable? with
  | some name => .error (.type (.unhashable name))
  | Option.none => .ok ()

def entriesOf (pairs : List (Value × Value)) : Except Fault (List (Value × Value)) :=
  pairs.foldlM (fun entries (key, value) => do
    checkKey key
    return insertEntry key value entries) []

/-- The members of a list in order, each only once. -/
def distinct : List Value → List Value → List Value
  | seen, [] => seen.reverse
  | seen, v :: rest => if seen.any (sameKey · v) then distinct seen rest else distinct (v :: seen) rest

end Value

end Knot
