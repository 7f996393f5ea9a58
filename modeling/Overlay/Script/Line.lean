import Overlay.Fault

/-!
# Scripts and their lines

A script is a text of lines, each ended by a line feed or by a carriage return and a line feed; the
last line need not be ended.  Blank lines say nothing and are passed over.

Every other line is `name=values`.  The values are split at commas into tokens; a token that
begins with a double quote and is closed by a later one may itself hold commas.  Empty fields give
no token.  `Line.print` writes a line back, with a comma after every token.
-/

namespace Overlay

namespace Script

/-! ### Documents -/

/-- The line without the carriage return it closes with. -/
def dropReturn (cs : List Char) : List Char := if cs.getLast? = some '\r' then cs.dropLast else cs

/-- The lines of a text, without their ends.  `line` holds the characters read since the last end,
in reverse. -/
def linesFrom (line : List Char) : List Char → List (List Char)
  | [] => if line = [] then [] else [line.reverse]
  | c :: rest =>
    if c = '\n' then dropReturn line.reverse :: linesFrom [] rest else linesFrom (c :: line) rest

/-- The lines of a text. -/
def textLines (text : String) : List String := (linesFrom [] text.toList).map String.ofList

/-- The lines of a document that are not blank. -/
def documentLines (text : String) : List String :=
  (textLines text).filter fun line => !Text.isBlankText line.toList

/-! ### Tokens -/

/-- The tokens of a value text, from left to right: a quoted stretch where a quote is closed later
on, and otherwise the longest stretch without a comma. -/
def tokenize : List Char → List (List Char)
  | [] => []
  | c :: rest =>
    if c = ',' then tokenize rest
    else if c = '"' ∧ '"' ∈ rest then
      ('"' :: rest.takeWhile (· ≠ '"') ++ ['"']) :: tokenize (rest.dropWhile (· ≠ '"')).tail
    else (c :: rest.takeWhile (· ≠ ',')) :: tokenize (rest.dropWhile (· ≠ ','))
  termination_by cs => cs.length
  decreasing_by
    · simp
    · have := (List.dropWhile_suffix (· ≠ '"') (l := rest)).length_le
      simp only [List.length_tail, List.length_cons]
      omega
    · have := (List.dropWhile_suffix (· ≠ ',') (l := rest)).length_le
      simp only [List.length_cons]
      omega

/-! ### Lines -/

/-- A letter of ASCII or an underscore. -/
def isNameStart (c : Char) : Bool := c.isAlpha || c == '_'

/-- A letter or digit of ASCII or an underscore. -/
def isNameChar (c : Char) : Bool := c.isAlphanum || c == '_'

/-- Carriage returns and line feeds. -/
def isLineEnd (c : Char) : Bool := c == '\r' || c == '\n'

/-- The text without the line ends it closes with. -/
def dropLineEnd (cs : List Char) : List Char := (cs.reverse.dropWhile isLineEnd).reverse

end Script

/-- A line of a script: its name and its tokens. -/
structure Line where
  name : String
  tokens : List String
  deriving DecidableEq, Repr

namespace Line

open Script

/-- The name and the value text of a line: a name, an equals sign, and a rest without line feed. -/
def split? (cs : List Char) : Option (List Char × List Char) :=
  match cs.takeWhile isNameChar, cs.dropWhile isNameChar with
  | c :: name, '=' :: rest => if isNameStart c && !rest.contains '\n' then some (c :: name, rest) else none
  | _, _ => none

/-- The line a text holds, if it has the form of one. -/
def parse? (text : String) : Option Line :=
  (split? (dropLineEnd text.toList)).map fun (name, rest) =>
    { name := String.ofList name, tokens := (tokenize rest).map String.ofList }

/-- The line a text holds. -/
def parse (text : String) : Except Fault Line :=
  match parse? text with
  | some line => .ok line
  | none => .error (.notALine text)

/-- A line with a comma after every token. -/
def print (line : Line) : String :=
  String.ofList (line.name.toList ++ '=' :: line.tokens.flatMap fun t => t.toList ++ [','])

end Line

end Overlay
