import Overlay.Text.Quoted

/-!
# Faults

Everything that can go wrong when a picture is configured or a store is asked for a slot.  A fault
is a cause; `Fault.message` words it.
-/

namespace Overlay

/-- What a token should have been. -/
inductive Expected
  | whole
  | real
  | switch
  | relative
  deriving DecidableEq, Repr

/-- The domain rule that a well-formed value breaks. -/
inductive Reason
  | negative (value : Int) (index : Nat)
  | endBeforeStart
  | emptyClip
  | negativeCount
  /-- The value is kept as its text. -/
  | outsideUnit (value : String)
  | noAlignment (index : Int)
  | noBaseline (index : Int)
  | emptyFont
  | channel (value : Int)
  deriving DecidableEq, Repr

inductive Fault
  /-- The text does not have the form `name=values`. -/
  | notALine (text : String)
  /-- A token is present and cannot be read. -/
  | unreadable (name : String) (index : Nat) (token : String) (expected : Expected)
  /-- A token that must be present is not. -/
  | missing (name : String) (index : Nat)
  /-- A token that must stand in double quotes does not. -/
  | unquoted (name : String) (index : Nat) (token : String)
  /-- The values could be read and break a domain rule. -/
  | refused (name : String) (reason : Reason)
  | noSlot (id capacity : Nat)
  | unknownProperty (name : String)
  | unknownAnimation (name : String)
  deriving DecidableEq, Repr

namespace Fault

def isShape : Fault → Bool
  | notALine _ => true
  | _ => false

/-- A token is missing or cannot be read. -/
def isValue : Fault → Bool
  | unreadable .. | missing .. | unquoted .. => true
  | _ => false

def isRefusal : Fault → Bool
  | refused .. => true
  | _ => false

end Fault

/-! ### Wording -/

def Expected.text : Expected → String
  | whole => "an integer"
  | real => "a number"
  | switch => "0 or 1"
  | relative => "a number or a +/- offset"

def Reason.text : Reason → String
  | negative value index => s!"{value} at index {index} is negative"
  | endBeforeStart => "end is before start"
  | emptyClip => "clip must be at least 1x1"
  | negativeCount => "count must not be negative"
  | outsideUnit value => s!"{value} is outside [0.0, 1.0]"
  | noAlignment index => s!"no alignment {index}"
  | noBaseline index => s!"no baseline {index}"
  | emptyFont => "size must be at least 1"
  | channel value => s!"channel {value} is outside 0..=255"

def Fault.message : Fault → String
  | notALine text => s!"Not a property line: {Text.quote text}"
  | unreadable name index token expected =>
    s!"Invalid value for `{name}` at index {index}: {Text.quote token} is not {expected.text}"
  | missing name index => s!"Missing value for `{name}` at index {index}"
  | unquoted name index token =>
    s!"Value for `{name}` at index {index} must be wrapped in double quotes: {Text.quote token}"
  | refused name reason => s!"Invalid `{name}`: {reason.text}"
  | noSlot id capacity => s!"Picture id {id} out of range (capacity: {capacity})"
  | unknownProperty name => s!"Unknown property: {name}"
  | unknownAnimation name => s!"Unknown animation: {name}"

end Overlay
