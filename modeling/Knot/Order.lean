import Knot.Equality

/-!
The order of values, and sorting by it. Numbers and texts are ordered, and lists and tuples by their
first members that differ. For showing entries in order, values of types that have no common order
go by the names of their types.
-/

namespace Knot

/-- The strict order or the order with equality, and the same from the other side. -/
inductive OrderOp where
  | less | lessEqual | greater | greaterEqual
  deriving DecidableEq, Repr

namespace OrderOp

def text : OrderOp → String
  | less => "<"
  | lessEqual => "<="
  | greater => ">"
  | greaterEqual => ">="

/-- The order seen from the other side. -/
def flip : OrderOp → OrderOp
  | less => greater
  | lessEqual => greaterEqual
  | greater => less
  | greaterEqual => lessEqual

def numbers : OrderOp → Number → Number → Bool
  | less, m, n => m.less n
  | lessEqual, m, n => m.lessEqual n
  | greater, m, n => n.less m
  | greaterEqual, m, n => n.lessEqual m

def lengths : OrderOp → Nat → Nat → Bool
  | less, m, n => m < n
  | lessEqual, m, n => m ≤ n
  | greater, m, n => n < m
  | greaterEqual, m, n => n ≤ m

def texts : OrderOp → String → String → Bool
  | less, s, t => s < t
  | lessEqual, s, t => !(t < s)
  | greater, s, t => t < s
  | greaterEqual, s, t => !(s < t)

theorem flip_flip (op : OrderOp) : op.flip.flip = op := by cases op <;> rfl

theorem texts_flip (op : OrderOp) (s t : String) : op.flip.texts s t = op.texts t s := by
  cases op <;> rfl

end OrderOp

namespace Value

section

variable (arrays : OrderOp → Value → Value → Except Fault Value) (op : OrderOp)

mutual

/-- The order of two values, where `arrays` compares two values of which one is an array. -/
def orderedWith (a b : Value) : Except Fault Value :=
  match a, b with
  | array .., _ | _, array .. => arrays op a b
  | str s, str t => .ok (bool (op.texts s t))
  | list _ xs, list _ ys | tuple _ xs, tuple _ ys => membersOrdered xs ys (xs.length, ys.length)
  | a, b =>
      match a.number?, b.number? with
      | some m, some n => .ok (bool (op.numbers m n))
      | _, _ => .error (.type (.unordered op.text a.operandName b.operandName))

/-- The order of the first members that differ, or else of the lengths. -/
def membersOrdered (xs ys : List Value) (lengths : Nat × Nat) : Except Fault Value :=
  match xs, ys with
  | x :: xs, y :: ys => do
      if ← equalMember x y then membersOrdered xs ys lengths else orderedWith x y
  | _, _ => .ok (bool (op.lengths lengths.1 lengths.2))

end

end

/-- Whether a key goes before another one where entries are shown in order. -/
def keyBefore (a b : Value) : Bool :=
  match orderedWith (fun _ _ _ => .error .stackExhausted) .less a b with
  | .ok r => r.truth.toOption == some true
  | .error _ => a.typeText < b.typeText

end Value

namespace Sorted

variable {α : Type} (before : α → α → Bool)

/-- The longest start that does not descend, and the rest. -/
def ascending (last : α) : List α → List α × List α
  | [] => ([], [])
  | x :: rest =>
      if before x last then ([], x :: rest)
      else
        let (run, tail) := ascending x rest
        (x :: run, tail)

/-- The longest start that descends strictly, and the rest. -/
def descending (last : α) : List α → List α × List α
  | [] => ([], [])
  | x :: rest =>
      if before x last then
        let (run, tail) := descending x rest
        (x :: run, tail)
      else ([], x :: rest)

/-- The place of `x` among the first `high` of sorted elements, from `low` on, by halving. -/
def place (sorted : Array α) (x : α) : Nat → Nat → Nat → Nat
  | 0, low, _ => low
  | fuel + 1, low, high =>
      if low < high then
        let middle := low + (high - low) / 2
        match sorted[middle]? with
        | some y =>
            if before x y then place sorted x fuel low middle
            else place sorted x fuel (middle + 1) high
        | none => low
      else low

def insert (sorted : Array α) (x : α) : Array α :=
  let i := place before sorted x (sorted.size + 1) 0 sorted.size
  (sorted.toList.take i ++ x :: sorted.toList.drop i).toArray

/-- Sorts by inserting each element behind those that it does not go before. A start in order is
kept and a descending one is turned round first, which matters only where `before` is no order. -/
def sort : List α → List α
  | [] => []
  | [x] => [x]
  | x :: y :: rest =>
      let (run, tail) :=
        if before y x then
          let (run, tail) := descending before x (y :: rest)
          ((x :: run).reverse, tail)
        else
          let (run, tail) := ascending before x (y :: rest)
          (x :: run, tail)
      (tail.foldl (insert before) run.toArray).toList

end Sorted

end Knot
