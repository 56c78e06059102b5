import Knot.Bindings
import Knot.Text.Blank

/-!
Files of variables: a line `NAME=value` each, perhaps with `export` in front, a comment behind, and
the value in quotes, where it may run over several lines. A line that is none of this is passed
over. In a value, `$` and a name between braces stand for the variable's value.
-/

namespace Knot.Settings.EnvFile

open Text

/-- White space that does not end a line. -/
def isGap (c : Char) : Bool := isBlank c && c != '\n' && c != '\r'

/-- Every line end written as a line feed. -/
def unifyLineEnds : List Char → List Char
  | '\r' :: '\n' :: rest => '\n' :: unifyLineEnds rest
  | '\r' :: rest => '\n' :: unifyLineEnds rest
  | c :: rest => c :: unifyLineEnds rest
  | [] => []

def skipLine (s : List Char) : List Char := (s.dropWhile (· != '\n')).drop 1

def export? (s : List Char) : List Char :=
  let word := "export".toList
  match s.drop word.length with
  | c :: rest => if word.isPrefixOf s ∧ isGap c then rest.dropWhile isGap else s
  | [] => s

/-- The name at the start of a line; none where a comment starts. -/
def readName (s : List Char) : Except Unit (Option (List Char) × List Char) :=
  match s with
  | '#' :: _ => .ok (none, s)
  | '\'' :: rest =>
      match rest.takeWhile (· != '\''), rest.dropWhile (· != '\'') with
      | name@(_ :: _), _ :: rest => .ok (some name, rest)
      | _, _ => .error ()
  | s =>
      let inName (c : Char) : Bool := c != '=' && c != '#' && !isBlank c
      match s.takeWhile inName with
      | [] => .error ()
      | name => .ok (some name, s.dropWhile inName)

/-- The text up to the closing quote. The character behind a backslash does not close. -/
def quotedText? (quote : Char) (read : List Char) : List Char → Option (List Char × List Char)
  | [] => none
  | '\\' :: c :: rest => quotedText? quote (c :: '\\' :: read) rest
  | c :: rest =>
      if c = quote then some (read.reverse, rest) else quotedText? quote (c :: read) rest

/-- The characters that a backslash changes in a text between double quotes. -/
def escapes : List (Char × Char) :=
  [('\\', '\\'), ('\'', '\''), ('"', '"'), ('a', '\x07'), ('b', '\x08'), ('f', '\x0c'), ('n', '\n'),
    ('r', '\r'), ('t', '\t'), ('v', '\x0b')]

def unescape (table : List (Char × Char)) : List Char → List Char
  | '\\' :: c :: rest =>
      match table.lookup c with
      | some d => d :: unescape table rest
      | none => '\\' :: unescape table (c :: rest)
  | c :: rest => c :: unescape table rest
  | [] => []

/-- A value without quotes ends where a comment starts behind a blank. -/
def cutComment (blanks : List Char) : List Char → List Char
  | [] => []
  | c :: rest =>
      if isBlank c then cutComment (c :: blanks) rest
      else if c = '#' ∧ !blanks.isEmpty then []
      else blanks.reverse ++ c :: cutComment [] rest

/-- The value behind an equals sign. -/
def readValue (s : List Char) : Except Unit (List Char × List Char) :=
  match s with
  | '\'' :: rest =>
      match quotedText? '\'' [] rest with
      | some (text, rest) => .ok (unescape (escapes.take 2) text, rest)
      | none => .error ()
  | '"' :: rest =>
      match quotedText? '"' [] rest with
      | some (text, rest) => .ok (unescape escapes text, rest)
      | none => .error ()
  | s => .ok (cutComment [] (s.takeWhile (· != '\n')), s.dropWhile (· != '\n'))

/-- A name with its value, if it has one. -/
abbrev Entry := String × Option String

/-- The end of a line, perhaps behind a comment. -/
def endLine (entry : Option Entry) (s : List Char) : Option Entry × List Char :=
  let s := s.dropWhile isGap
  let s := if s.head? = some '#' then s.dropWhile (· != '\n') else s
  match s.dropWhile isGap with
  | [] => (entry, [])
  | '\n' :: rest => (entry, rest)
  | s => (none, skipLine s)

/-- The next line, from its first character that is not blank. -/
def readLine (s : List Char) : Option Entry × List Char :=
  let s := export? s
  match readName s with
  | .error () => (none, skipLine s)
  | .ok (name, rest) =>
      let entry (v : Option (List Char)) : Option Entry :=
        name.map fun name => (String.ofList name, v.map String.ofList)
      match rest.dropWhile isGap with
      | '=' :: rest =>
          let rest := rest.dropWhile isGap
          match readValue rest with
          | .ok (v, rest) => endLine (entry (some v)) rest
          | .error () => (none, skipLine rest)
      | rest => endLine (entry none) rest

/-- The entries of a text of which at most `fuel` lines are read. -/
def readLines : Nat → List Char → List Entry
  | 0, _ => []
  | fuel + 1, s =>
      match s.dropWhile isBlank with
      | [] => []
      | s =>
          let (entry, rest) := readLine s
          entry.toList ++ readLines fuel rest

/-- Replaces every variable between braces by its value, or else by the text behind `:-`. -/
def expand (value? : String → Option String) : Nat → List Char → List Char
  | 0, s => s
  | fuel + 1, s =>
      match s with
      | '$' :: '\x7b' :: rest =>
          let inName (c : Char) : Bool := c != '\x7d' && c != ':'
          let valueOr (standIn : List Char) : List Char :=
            match value? (String.ofList (rest.takeWhile inName)) with
            | some v => v.toList
            | none => standIn
          match rest.dropWhile inName with
          | '\x7d' :: after => valueOr [] ++ expand value? fuel after
          | ':' :: '-' :: after =>
              match after.dropWhile (· != '\x7d') with
              | _ :: behind => valueOr (after.takeWhile (· != '\x7d')) ++ expand value? fuel behind
              | [] => '$' :: expand value? fuel ('\x7b' :: rest)
          | _ => '$' :: expand value? fuel ('\x7b' :: rest)
      | c :: rest => c :: expand value? fuel rest
      | [] => []

/-- A variable's value: the file's own, also where that is no value, or else the environment's. -/
def valueIn? (environment : Bindings String String) (file : Bindings String (Option String))
    (name : String) : Option String :=
  match file.lookup name with
  | some v => some (v.getD "")
  | none => environment.lookup name

/-- The text without the mark that may stand in front of it to tell its encoding. -/
def dropMark : List Char → List Char
  | '\ufeff' :: rest => rest
  | s => s

/-- The variables of a file. A later line for a name replaces its value and keeps its place. -/
def read (environment : Bindings String String) (text : String) : Bindings String (Option String) :=
  let chars := unifyLineEnds (dropMark text.toList)
  (readLines (chars.length + 1) chars).foldl (fun file (name, v) =>
    file.assign name (v.map fun v =>
      String.ofList (expand (valueIn? environment file) (v.length + 1) v.toList))) []

end Knot.Settings.EnvFile
