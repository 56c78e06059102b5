/-!
Templates: texts with places for values. A place starts with a percent sign and tells by a letter
how its value is written; in front of the letter stand the key of the value in parentheses, flags,
the width and, behind a point, the precision, each of which may be left out.
-/

namespace Knot.Template

structure Flags where
  left : Bool := false
  sign : Bool := false
  blank : Bool := false
  marked : Bool := false
  zero : Bool := false
  deriving DecidableEq, Repr

/-- A width or a precision: a number, or a star for one that comes with the values. -/
inductive Amount where
  | unset
  | number (n : Nat)
  | fromValues
  | tooBig
  deriving DecidableEq, Repr

inductive Key where
  | absent
  | name (s : String)
  | unclosed
  deriving DecidableEq, Repr

/-- A place; `position` is that of its letter, which a template may lack that ends too early. -/
structure Place where
  key : Key
  flags : Flags
  width : Amount
  precision : Amount
  letter : Option Char
  position : Nat
  deriving DecidableEq, Repr

inductive Piece where
  | text (c : Char)
  | place (p : Place)
  deriving DecidableEq, Repr

/-- The largest width and the largest precision that can be written down. -/
def widthLimit : Nat := 9223372036854775807

def precisionLimit : Nat := 2147483647

/-- The text up to the parenthesis that closes a key, and the rest; `depth` counts the parentheses
that are open inside. -/
def spanKey (depth : Nat) (read : List Char) : List Char → Option (List Char × List Char)
  | [] => none
  | c :: rest =>
      if c = ')' then
        match depth with
        | 0 => some (read.reverse, rest)
        | depth + 1 => spanKey depth (c :: read) rest
      else spanKey (if c = '(' then depth + 1 else depth) (c :: read) rest

def splitKey : List Char → Key × List Char
  | '(' :: rest =>
      match spanKey 0 [] rest with
      | some (name, rest) => (.name (String.ofList name), rest)
      | none => (.unclosed, [])
  | s => (.absent, s)

def splitFlags (flags : Flags) : List Char → Flags × List Char
  | '-' :: rest => splitFlags { flags with left := true } rest
  | '+' :: rest => splitFlags { flags with sign := true } rest
  | ' ' :: rest => splitFlags { flags with blank := true } rest
  | '#' :: rest => splitFlags { flags with marked := true } rest
  | '0' :: rest => splitFlags { flags with zero := true } rest
  | s => (flags, s)

def splitAmount (limit : Nat) : List Char → Amount × List Char
  | '*' :: rest => (.fromValues, rest)
  | s =>
      match String.ofList (s.takeWhile Char.isDigit) |>.toNat? with
      | some n => (if n ≤ limit then .number n else .tooBig, s.dropWhile Char.isDigit)
      | none => (.unset, s)

def splitPrecision : List Char → Amount × List Char
  | '.' :: rest =>
      match splitAmount precisionLimit rest with
      | (.unset, rest) => (.number 0, rest)
      | r => r
  | s => (.unset, s)

/-- A letter for the size of a number, which has no effect. -/
def dropSize : List Char → List Char
  | 'h' :: rest | 'l' :: rest | 'L' :: rest => rest
  | s => s

/-- The place behind a percent sign, and the rest; `total` is the length of the whole template. -/
def splitPlace (total : Nat) (s : List Char) : Place × List Char :=
  let (key, s) := splitKey s
  let (flags, s) := splitFlags {} s
  let (width, s) := splitAmount widthLimit s
  let (precision, s) := splitPrecision s
  let s := dropSize s
  (⟨key, flags, width, precision, s.head?, total - s.length⟩, s.tail)

theorem spanKey_length {depth : Nat} {read s name rest : List Char}
    (h : spanKey depth read s = some (name, rest)) : rest.length ≤ s.length := by
  fun_induction spanKey depth read s with
  | case1 => simp at h
  | case2 => simp_all
  | case3 _ _ _ ih | case4 _ _ _ _ _ ih => exact Nat.le_succ_of_le (ih h)

theorem splitKey_length (s : List Char) : (splitKey s).2.length ≤ s.length := by
  unfold splitKey
  split
  · split
    · rename_i h
      exact Nat.le_succ_of_le (spanKey_length h)
    · simp
  · simp

theorem splitFlags_length (flags : Flags) (s : List Char) :
    (splitFlags flags s).2.length ≤ s.length := by
  fun_induction splitFlags flags s <;> simp_all <;> omega

theorem splitAmount_length (limit : Nat) (s : List Char) :
    (splitAmount limit s).2.length ≤ s.length := by
  unfold splitAmount
  split
  · simp
  · split
    · exact (List.dropWhile_suffix _).length_le
    · simp

theorem splitPrecision_length (s : List Char) : (splitPrecision s).2.length ≤ s.length := by
  unfold splitPrecision
  split
  · rename_i rest
    have h := splitAmount_length precisionLimit rest
    split <;> simp_all <;> omega
  · simp

theorem dropSize_length (s : List Char) : (dropSize s).length ≤ s.length := by
  unfold dropSize
  split <;> simp

theorem splitPlace_length (total : Nat) (s : List Char) :
    (splitPlace total s).2.length ≤ s.length := by
  have a := splitKey_length s
  have b := splitFlags_length {} (splitKey s).2
  have c := splitAmount_length widthLimit (splitFlags {} (splitKey s).2).2
  have d := splitPrecision_length (splitAmount widthLimit (splitFlags {} (splitKey s).2).2).2
  have e := dropSize_length
    (splitPrecision (splitAmount widthLimit (splitFlags {} (splitKey s).2).2).2).2
  simp only [splitPlace, List.length_tail]
  omega

/-- The pieces of a template; two percent signs stand for one. -/
def pieces (total : Nat) : List Char → List Piece
  | [] => []
  | '%' :: '%' :: rest => .text '%' :: pieces total rest
  | '%' :: rest =>
      have := splitPlace_length total rest
      .place (splitPlace total rest).1 :: pieces total (splitPlace total rest).2
  | c :: rest => .text c :: pieces total rest
termination_by s => s.length
decreasing_by all_goals grind

end Knot.Template
