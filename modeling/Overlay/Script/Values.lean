import Overlay.Scalar
import Overlay.Script.Line
import Overlay.Script.Relative

/-!
# Values of a line

Each reader looks at the token with a given index.  Past the end of the line there is no value, and
the caller may take a default; a token that is present and cannot be read is always a fault.
-/

namespace Overlay

/-- The layer a part lives on. -/
inductive Layer
  | map
  | object
  deriving DecidableEq, Repr

/-- The layer written as a switch. -/
def Layer.ofBool (isMap : Bool) : Layer := if isMap then map else object

/-- The name of a layer. -/
def Layer.text : Layer → String
  | map => "Map"
  | object => "Object"

/-! ### Readers of one token -/

/-- A switch: the digit `0` or `1` between blanks. -/
def readSwitch? (cs : List Char) : Option Bool :=
  match Text.trim cs with
  | ['0'] => some false
  | ['1'] => some true
  | _ => none

/-- The text between a leading and a trailing double quote, which must be two. -/
def unquote? : List Char → Option (List Char)
  | '"' :: rest => if rest.getLast? = some '"' then some rest.dropLast else none
  | _ => none

namespace Line

/-- The token at an index. -/
def token? (line : Line) (i : Nat) : Option String := line.tokens[i]?

/-- Reads the token at an index, if there is one. -/
def read {β : Type} (line : Line) (expected : Expected) (reader : List Char → Option β) (i : Nat) :
    Except Fault (Option β) :=
  match line.token? i with
  | none => .ok none
  | some token =>
    match reader token.toList with
    | some value => .ok (some value)
    | none => .error (.unreadable line.name i token expected)

/-- The value that was read, which must be present. -/
def present {β : Type} (line : Line) (i : Nat) : Except Fault (Option β) → Except Fault β
  | .ok (some value) => .ok value
  | .ok none => .error (.missing line.name i)
  | .error fault => .error fault

/-- The value that was read, or a default where there is none. -/
def orElse {β : Type} (fallback : β) : Except Fault (Option β) → Except Fault β
  | .ok (some value) => .ok value
  | .ok none => .ok fallback
  | .error fault => .error fault

/-! ### Readers of a line

Each kind of token has up to three readers: one that gives nothing past the end of the line, one with
a default (`Or`), and one for which the token has to be present (`require`).
-/

variable (line : Line) (i : Nat)

/-- A whole number. -/
def whole : Except Fault (Option Int) := line.read .whole readWhole? i

@[inherit_doc whole]
def wholeOr (fallback : Int) : Except Fault Int := orElse fallback (line.whole i)

@[inherit_doc whole]
def requireWhole : Except Fault Int := line.present i (line.whole i)

/-- A real number, exact. -/
def real : Except Fault (Option Numeral) := line.read .real readReal? i

/-- A switch. -/
def switch : Except Fault (Option Bool) := line.read .switch readSwitch? i

@[inherit_doc switch]
def switchOr (fallback : Bool) : Except Fault Bool := orElse fallback (line.switch i)

@[inherit_doc switch]
def requireSwitch : Except Fault Bool := line.present i (line.switch i)

/-- A relative value. -/
def relative : Except Fault (Option Relative) := line.read .relative readRelative? i

@[inherit_doc relative]
def relativeOr (fallback : Relative) : Except Fault Relative := orElse fallback (line.relative i)

@[inherit_doc relative]
def requireRelative : Except Fault Relative := line.present i (line.relative i)

/-- A text in double quotes, without them. -/
def quoted : Except Fault (Option String) :=
  match line.token? i with
  | none => .ok none
  | some token =>
    match unquote? token.toList with
    | some inner => .ok (some (String.ofList inner))
    | none => .error (.unquoted line.name i token)

@[inherit_doc quoted]
def quotedOr (fallback : String) : Except Fault String := orElse fallback (line.quoted i)

@[inherit_doc quoted]
def requireQuoted : Except Fault String := line.present i (line.quoted i)

/-! ### Scalars -/

variable {α : Type} [Scalar α]

/-- A real number, as the nearest scalar. -/
def scalar : Except Fault (Option α) := (line.real i).map (Option.map Scalar.ofNumeral)

@[inherit_doc scalar]
def scalarOr (fallback : α) : Except Fault α := orElse fallback (line.scalar i)

@[inherit_doc scalar]
def requireScalar : Except Fault α := line.present i (line.scalar i)

/-! ### Domain values -/

/-- A layer, written as a switch. -/
def layer : Except Fault (Option Layer) := (line.switch i).map (Option.map Layer.ofBool)

end Line

end Overlay
