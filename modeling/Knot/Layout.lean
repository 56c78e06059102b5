import Knot.Text.Blank
import Knot.Text.Quoted

/-!
Laying a value out on a page of eighty columns. A value whose one-line text fits is written on one
line; a bracketed one that does not fit is written one item a line, a long text in quoted pieces cut
behind blanks, and all else is written as it is.
-/

namespace Knot

/-- A value to be laid out; `flat` is its text on one line. -/
inductive Doc where
  | atom (flat : String)
  | text (s : String)
  | list (flat : String) (items : List Doc)
  | tuple (flat : String) (items : List Doc)
  | mapping (flat : String) (entries : List (String × Doc))
  | record (flat name : String) (fields : List (String × Doc))

namespace Doc

def pageWidth : Nat := 80

def flat : Doc → String
  | atom flat => flat
  | text s => Text.quoted s
  | list flat _ => flat
  | tuple flat _ => flat
  | mapping flat _ => flat
  | record flat _ _ => flat

def lineBreak (indent : Nat) : String := "\n" ++ String.ofList (List.replicate indent ' ')

def quotedLength (s : List Char) : Nat := (Text.quotedChars s).length

/-- Words packed into pieces, as many to a piece as its quoted text fits behind `indent`; the last
piece leaves `allowance` columns free. -/
def packWords (indent allowance : Nat) (current : List Char) : List (List Char) → List (List Char)
  | [] => if current.isEmpty then [] else [current]
  | word :: rest =>
      let candidate := current ++ word
      let reserve := if rest.isEmpty then allowance else 0
      if quotedLength candidate + indent + reserve > pageWidth then
        if current.isEmpty then packWords indent allowance word rest
        else current :: packWords indent allowance word rest
      else packWords indent allowance candidate rest

/-- The pieces a text is written in, line by line. -/
def pieces (indent allowance : Nat) : List (List Char) → List (List Char)
  | [] => []
  | line :: rest =>
      let reserve := if rest.isEmpty then allowance else 0
      if quotedLength line + indent + reserve ≤ pageWidth then line :: pieces indent allowance rest
      else packWords indent reserve [] (Text.words line) ++ pieces indent allowance rest

def joinPieces (indent : Nat) (parts : List (List Char)) : String :=
  (lineBreak indent).intercalate (parts.map fun part => String.ofList (Text.quotedChars part))

/-- A text that does not fit its line; an empty one has no pieces. -/
def formatText (s : String) (indent allowance : Nat) : String :=
  match pieces indent allowance (Text.lines s.toList) with
  | [] => Text.quoted s
  | parts => joinPieces indent parts

def fits (d : Doc) (indent allowance : Nat) : Bool :=
  d.flat.length + indent + allowance ≤ pageWidth

mutual

/-- The layout of a value whose first line starts in column `indent` and whose last line leaves
`allowance` columns free. -/
def format (d : Doc) (indent allowance : Nat) : String :=
  if d.fits indent allowance then d.flat
  else
    match d with
    | atom flat => flat
    | text s => formatText s indent allowance
    | list _ items => "[" ++ formatItems items (indent + 1) (allowance + 1) ++ "]"
    | tuple _ items =>
        let closing := if items.length = 1 then ",)" else ")"
        "(" ++ formatItems items (indent + 1) (allowance + closing.length) ++ closing
    | mapping _ entries => "\x7b" ++ formatEntries entries (indent + 1) (allowance + 1) ++ "\x7d"
    | record _ name fields =>
        name ++ "(" ++ formatEntries fields (indent + name.length + 1) allowance ++ ")"

def formatItems (items : List Doc) (indent allowance : Nat) : String :=
  match items with
  | [] => ""
  | [d] => format d indent allowance
  | d :: rest => format d indent 1 ++ "," ++ lineBreak indent ++ formatItems rest indent allowance

def formatEntries (entries : List (String × Doc)) (indent allowance : Nat) : String :=
  match entries with
  | [] => ""
  | [(label, d)] => label ++ format d (indent + label.length) allowance
  | (label, d) :: rest =>
      label ++ format d (indent + label.length) 1 ++ "," ++ lineBreak indent ++
        formatEntries rest indent allowance

end

/-- The layout of a whole page. A text in several pieces stands between parentheses. -/
def pretty : Doc → String
  | text s =>
      if (text s).fits 0 0 then Text.quoted s
      else
        match pieces 1 1 (Text.lines s.toList) with
        | [] => Text.quoted s
        | [part] => String.ofList (Text.quotedChars part)
        | parts => "(" ++ joinPieces 1 parts ++ ")"
  | d => d.format 0 0

theorem format_of_fits (d : Doc) (indent allowance : Nat) (h : d.fits indent allowance = true) :
    d.format indent allowance = d.flat := by
  unfold format
  simp [h]

end Doc

end Knot
