import Knot.Text.Ranges

/-!
White space in every script, and the characters that end a line. Cutting a text into lines or into
runs of words loses nothing: the pieces join to the text again.
-/

namespace Knot.Text

def blankRanges : List (Nat × Nat) := [
  (0x9, 0xd), (0x1c, 0x20), (0x85, 0x85), (0xa0, 0xa0), (0x1680, 0x1680), (0x2000, 0x200a),
  (0x2028, 0x2029), (0x202f, 0x202f), (0x205f, 0x205f), (0x3000, 0x3000)]

def isBlank (c : Char) : Bool := inRanges blankRanges c.toNat

def lineEndRanges : List (Nat × Nat) := [
  (0xa, 0xd), (0x1c, 0x1e), (0x85, 0x85), (0x2028, 0x2029)]

def isLineEnd (c : Char) : Bool := inRanges lineEndRanges c.toNat

/-- White space that may stand around a numeral; the separators of files, groups, records and units
may not. -/
def isMargin (c : Char) : Bool := isBlank c && !(0x1c ≤ c.toNat && c.toNat ≤ 0x1f)

/-- The text without the margins at its ends. -/
def trimMargin (s : List Char) : List Char :=
  ((s.dropWhile isMargin).reverse.dropWhile isMargin).reverse

/-- Lines with their ends kept; a carriage return and the line feed after it are one end. -/
def linesOf (current : List Char) : List Char → List (List Char)
  | [] => if current.isEmpty then [] else [current.reverse]
  | '\r' :: '\n' :: rest => ('\n' :: '\r' :: current).reverse :: linesOf [] rest
  | c :: rest =>
      if isLineEnd c then (c :: current).reverse :: linesOf [] rest
      else linesOf (c :: current) rest

def lines (s : List Char) : List (List Char) := linesOf [] s

/-- Each word with the blanks after it; blanks before the first word are a piece of their own. -/
def wordsOf (current : List Char) (afterBlank : Bool) : List Char → List (List Char)
  | [] => if current.isEmpty then [] else [current.reverse]
  | c :: rest =>
      if isBlank c then wordsOf (c :: current) true rest
      else if afterBlank then current.reverse :: wordsOf [c] false rest
      else wordsOf (c :: current) false rest

def words (s : List Char) : List (List Char) := wordsOf [] false s

theorem linesOf_flatten (current s : List Char) :
    (linesOf current s).flatten = current.reverse ++ s := by
  fun_induction linesOf current s <;> simp_all

theorem lines_flatten (s : List Char) : (lines s).flatten = s := by
  simp [lines, linesOf_flatten]

theorem wordsOf_flatten (current : List Char) (afterBlank : Bool) (s : List Char) :
    (wordsOf current afterBlank s).flatten = current.reverse ++ s := by
  fun_induction wordsOf current afterBlank s <;> simp_all

theorem words_flatten (s : List Char) : (words s).flatten = s := by
  simp [words, wordsOf_flatten]

end Knot.Text
