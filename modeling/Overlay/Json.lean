import Overlay.Number.Shortest

/-!
# JSON values

The values that are printed as JSON, and their text on one line or indented.  Numbers with a
fraction part are floating-point; those that are not finite are written as `null`.
-/

namespace Overlay

/-- A JSON value. -/
inductive Json
  | null
  | bool (b : Bool)
  | int (n : Int)
  | num (x : Float)
  | str (s : String)
  | arr (values : List Json)
  | obj (fields : List (String × Json))

namespace Json

/-! ### Leaves -/

/-- The written form of one character of a string. -/
def escape (c : Char) : List Char :=
  if c = '"' then ['\\', '"']
  else if c = '\\' then ['\\', '\\']
  else if c = '\x08' then ['\\', 'b']
  else if c = '\t' then ['\\', 't']
  else if c = '\n' then ['\\', 'n']
  else if c = '\x0c' then ['\\', 'f']
  else if c = '\r' then ['\\', 'r']
  else if c.toNat < 0x20 then
    let ds := Nat.toDigits 16 c.toNat
    ['\\', 'u'] ++ List.replicate (4 - ds.length) '0' ++ ds
  else [c]

/-- A string in quotes. -/
def quote (s : String) : String := String.ofList ('"' :: s.toList.flatMap escape ++ ['"'])

/-- A number, ties going to the even digit: positional, with a fraction part, where the leading digit
stands between the fifth place after and the sixteenth place before the point; scientific otherwise. -/
def numberText (x : Float) : String :=
  if x.isFinite then
    let sign := if signBit x then ['-'] else []
    let m := Magnitude.ofFloat x
    let body :=
      if m.mantissa = 0 then ['0', '.', '0']
      else
        let d := m.shortest .even
        let top := d.exponent + digitCount d.digits
        if top ≤ -5 ∨ 16 < top then d.scientific
        else if 0 ≤ d.exponent then d.plain ++ ['.', '0']
        else d.plain
    String.ofList (sign ++ body)
  else "null"

/-! ### Texts -/

/-- The text of a value.  With an indentation every member stands on a line of its own, two blanks
deeper than the value; without one nothing is set apart. -/
def write (indent : Option Nat) : Json → String
  | null => "null"
  | bool b => if b then "true" else "false"
  | int n => toString n
  | num x => numberText x
  | str s => quote s
  | arr [] => "[]"
  | arr (v :: vs) =>
    "[" ++ newline inner ++ write inner v
      ++ writeAll inner vs ++ newline indent ++ "]"
  | obj [] => "\x7b\x7d"
  | obj ((k, v) :: fs) =>
    "\x7b" ++ newline inner ++ quote k ++ colon ++ write inner v
      ++ writeFields inner fs ++ newline indent ++ "\x7d"
where
  inner : Option Nat := indent.map (· + 2)
  colon : String := if indent.isSome then ": " else ":"
  newline : Option Nat → String
    | none => ""
    | some n => String.ofList ('\n' :: List.replicate n ' ')
  writeAll (indent : Option Nat) : List Json → String
    | [] => ""
    | v :: vs => "," ++ newline indent ++ write indent v ++ writeAll indent vs
  writeFields (indent : Option Nat) : List (String × Json) → String
    | [] => ""
    | (k, v) :: fs =>
      "," ++ newline indent ++ quote k ++ (if indent.isSome then ": " else ":") ++ write indent v
        ++ writeFields indent fs

/-- The text of a value on one line. -/
def compact (j : Json) : String := write none j

/-- The text of a value over several lines. -/
def pretty (j : Json) : String := write (some 0) j

end Json

end Overlay
